/-
  Doc comments in the text of a class. What stands between the opening and the closing line of
  a comment (`commentLines`) must not end it early: a line with `*/` does (`Closes`).

  Annotations cannot, as every `*/` is taken out of them until none is left
  (`not_closes_sanitizeTag`). Types and names of properties are written as they are. So the
  comments of a class hold exactly if no type of a property has a `*/`, and no name of one
  whose accessors are documented (`Class.not_closes_iff`).
-/
import Mathlib.Data.List.Infix
import OrmGen.Php.ClassText

namespace OrmGen.Php

/-- A text that ends the comment in which it stands. -/
def Closes (s : String) : Prop := ['*', '/'] <:+: s.toList

instance (s : String) : Decidable (Closes s) := inferInstanceAs (Decidable (_ <:+: _))

variable {s t margin : String} {cs xs ys : List Char} {ls ls' inner inner' : List String}

/-! ## Texts that end comments -/

theorem closer_infix_cons_iff {ch : Char} : ['*', '/'] <:+: ch :: cs ↔
    ch = '*' ∧ cs.head? = some '/' ∨ ['*', '/'] <:+: cs := by
  have hhead : ['/'] <+: cs ↔ cs.head? = some '/' := by
    cases cs with
    | nil => simp
    | cons d cs => simp [List.cons_prefix_cons, eq_comm]
  rw [List.infix_cons_iff, List.cons_prefix_cons, hhead, eq_comm (a := '*')]

/-- Two texts can only end a comment together if one ends with the star and the other starts
with the slash. -/
theorem closer_infix_append_iff (h : ¬ (xs.getLast? = some '*' ∧ ys.head? = some '/')) :
    ['*', '/'] <:+: xs ++ ys ↔ ['*', '/'] <:+: xs ∨ ['*', '/'] <:+: ys := by
  induction xs with
  | nil => simp
  | cons x xs ih =>
    rw [List.cons_append, closer_infix_cons_iff, closer_infix_cons_iff]
    cases xs with
    | nil =>
      have hx : ¬ (x = '*' ∧ ys.head? = some '/') := by simpa using h
      simp [hx]
    | cons d xs =>
      have hrest := ih (by simpa using h)
      rw [hrest, List.cons_append, List.head?_cons, List.head?_cons, or_assoc]

theorem closes_append_iff (h : ¬ (s.toList.getLast? = some '*' ∧ t.toList.head? = some '/')) :
    Closes (s ++ t) ↔ Closes s ∨ Closes t := by
  unfold Closes
  rw [String.toList_append]
  exact closer_infix_append_iff h

theorem closes_prefix_iff (hclosed : ¬ Closes s) (hlast : s.toList.getLast? ≠ some '*') :
    Closes (s ++ t) ↔ Closes t := by
  rw [closes_append_iff fun h => hlast h.1]
  simp [hclosed]

theorem closes_suffix_iff (hclosed : ¬ Closes t) (hhead : t.toList.head? ≠ some '/') :
    Closes (s ++ t) ↔ Closes s := by
  rw [closes_append_iff fun h => hhead h.2]
  simp [hclosed]

/-! ## Annotations -/

theorem length_dropClosers_le (cs : List Char) : (dropClosers cs).length ≤ cs.length := by
  fun_induction dropClosers cs with
  | case1 cs ih =>
    have hlength : ('*' :: '/' :: cs).length = cs.length + 2 := rfl
    omega
  | case2 ch cs _ ih =>
    rw [List.length_cons, List.length_cons]
    omega
  | case3 => exact le_refl _

/-- A sweep that finds something to delete makes the text shorter. -/
theorem length_dropClosers_lt (h : ['*', '/'] <:+: cs) : (dropClosers cs).length < cs.length := by
  fun_induction dropClosers cs with
  | case1 cs =>
    have hle := length_dropClosers_le cs
    have hlength : ('*' :: '/' :: cs).length = cs.length + 2 := rfl
    omega
  | case2 ch cs hnot ih =>
    rw [closer_infix_cons_iff] at h
    rcases h with ⟨rfl, hslash⟩ | hrest
    · obtain ⟨rest, rfl⟩ := List.head?_eq_some_iff.1 hslash
      exact absurd rfl (hnot rest rfl)
    · have hlt := ih hrest
      rw [List.length_cons, List.length_cons]
      omega
  | case3 => simp at h

theorem not_closer_infix_withoutClosers (cs : List Char) : ¬ ['*', '/'] <:+: withoutClosers cs := by
  fun_induction withoutClosers cs with
  | case1 cs _ ih => exact ih
  | case2 cs hstable =>
    intro h
    exact hstable (length_dropClosers_lt h)

/-- An annotation that is written ends no comment. -/
theorem not_closes_sanitizeTag (s : String) : ¬ Closes (sanitizeTag s) := by
  unfold Closes sanitizeTag
  rw [String.toList_ofList]
  exact not_closer_infix_withoutClosers s.toList

/-! ## Lines inside comments -/

/-- The lines between an opening line and the next closing line, from a line on that is
inside a comment or not. The two stand after `margin`. -/
def commentLines (margin : String) : Bool → List String → List String
  | _, [] => []
  | true, l :: ls =>
    if l = margin ++ " */" then commentLines margin false ls
    else l :: commentLines margin true ls
  | false, l :: ls => commentLines margin (l = margin ++ "/**") ls

/-- A line, one level deeper unless it is empty. -/
def indentLine (l : String) : String := if l = "" then l else indentation ++ l

theorem indentLine_eq_iff (ht : t ≠ "") : indentLine s = indentation ++ t ↔ s = "" ++ t := by
  unfold indentLine
  rw [String.empty_append]
  split
  · rename_i hs
    rw [hs]
    constructor
    · intro h
      have hlist := congrArg String.toList h
      simp [indentation] at hlist
    · exact fun h => absurd h.symm ht
  · exact String.append_right_inj _

theorem commentLines_indent (inside : Bool) (ls : List String) :
    commentLines indentation inside (indent ls) =
      (commentLines "" inside ls).map indentLine := by
  induction ls generalizing inside with
  | nil => cases inside <;> rfl
  | cons l ls ih =>
    have hindent : indent (l :: ls) = indentLine l :: indent ls := rfl
    have hopening : indentLine l = indentation ++ "/**" ↔ l = "" ++ "/**" :=
      indentLine_eq_iff (by decide)
    have hclosing : indentLine l = indentation ++ " */" ↔ l = "" ++ " */" :=
      indentLine_eq_iff (by decide)
    rw [hindent]
    cases inside with
    | true =>
      unfold commentLines
      by_cases h : l = "" ++ " */"
      · rw [if_pos h, if_pos (hclosing.2 h), ih]
      · rw [if_neg h, if_neg (h ∘ hclosing.1), ih, List.map_cons]
    | false =>
      unfold commentLines
      simp only [hopening, ih]

theorem closes_indentLine_iff : Closes (indentLine s) ↔ Closes s := by
  unfold indentLine
  split
  · rfl
  · exact closes_prefix_iff (by decide) (by decide)

/-- The lines `ls` open comments only to close them, and `inner` are those inside. -/
def IsBlock (ls inner : List String) : Prop :=
  ∀ rest, commentLines "" false (ls ++ rest) = inner ++ commentLines "" false rest

namespace IsBlock

theorem commentLines_eq (h : IsBlock ls inner) : commentLines "" false ls = inner := by
  have hall := h []
  rw [List.append_nil] at hall
  rw [hall]
  exact List.append_nil inner

theorem append (h : IsBlock ls inner) (h' : IsBlock ls' inner') :
    IsBlock (ls ++ ls') (inner ++ inner') := by
  intro rest
  rw [List.append_assoc, h, h', List.append_assoc]

theorem of_plain (h : ∀ l ∈ ls, l ≠ "/**") : IsBlock ls [] := by
  intro rest
  induction ls with
  | nil => rfl
  | cons l ls ih =>
    rw [List.forall_mem_cons] at h
    have hopening : l ≠ "" ++ "/**" := by
      rw [String.empty_append]
      exact h.1
    rw [List.cons_append, commentLines, decide_eq_false hopening, ih h.2]

theorem append_plain (h : IsBlock ls inner) (hplain : ∀ l ∈ ls', l ≠ "/**") :
    IsBlock (ls ++ ls') inner := by
  have happend := h.append (of_plain hplain)
  rw [List.append_nil] at happend
  exact happend

theorem flatMap {α : Type} {as : List α} {f g : α → List String}
    (h : ∀ a ∈ as, IsBlock (f a) (g a)) : IsBlock (as.flatMap f) (as.flatMap g) := by
  induction as with
  | nil => exact fun _ => rfl
  | cons a as ih =>
    rw [List.forall_mem_cons] at h
    rw [List.flatMap_cons, List.flatMap_cons]
    exact h.1.append (ih h.2)

end IsBlock

theorem docLine_ne_closing (l : Option String) : docLine l ≠ " */" := by
  intro h
  have hlist := congrArg String.toList h
  cases l with
  | none => exact absurd h (by decide)
  | some s => simp [docLine, String.toList_append] at hlist

/-- Inside a doc comment are its own lines. -/
theorem isBlock_docComment (ls : List (Option String)) :
    IsBlock (docComment ls) (ls.map docLine) := by
  have hinside : ∀ ls : List (Option String), ∀ rest,
      commentLines "" true (ls.map docLine ++ " */" :: rest) =
        ls.map docLine ++ commentLines "" false rest := by
    intro ls rest
    induction ls with
    | nil => rfl
    | cons l ls ih =>
      have hline : docLine l ≠ "" ++ " */" := by
        rw [String.empty_append]
        exact docLine_ne_closing l
      rw [List.map_cons, List.cons_append, commentLines, if_neg hline, ih, List.cons_append]
  intro rest
  have hopens : docComment ls ++ rest = "/**" :: (ls.map docLine ++ " */" :: rest) := by
    simp [docComment]
  rw [hopens, commentLines]
  exact hinside ls rest

/-! ## The comments of a class -/

theorem closes_docLine_iff : Closes (docLine (some s)) ↔ Closes s :=
  closes_prefix_iff (by decide) (by decide)

theorem not_closes_annotationLines (annotations : List String) :
    ∀ l ∈ Class.annotationLines annotations, ¬ Closes (docLine l) := by
  intro l hl
  obtain ⟨tag, _, rfl⟩ := List.mem_map.1 hl
  rw [closes_docLine_iff]
  exact not_closes_sanitizeTag tag

theorem ne_opening (h : s.toList.head? ≠ some '/') : s ≠ "/**" := by
  rintro rfl
  exact h rfl

namespace Property

variable {p : Property} {line : String}

/-- The parts of the doc comment of a property. -/
def docParts (p : Property) : List (Option String) :=
  let annotations := Class.annotationLines p.annotations
  let type := some ("@var " ++ p.typeName)
  if annotations = [] then [type] else annotations ++ [none, type]

/-- The lines inside the doc comment of a property. -/
def docInner (p : Property) : List String := p.docParts.map docLine

/-- The doc comment of a property ends early exactly if its type does. -/
theorem not_closes_docInner_iff :
    (∀ l ∈ p.docInner, ¬ Closes l) ↔ ¬ Closes p.typeName := by
  have htype : Closes (docLine (some ("@var " ++ p.typeName))) ↔ Closes p.typeName := by
    rw [closes_docLine_iff]
    exact closes_prefix_iff (by decide) (by decide)
  have hblank : ¬ Closes (docLine none) := by decide
  have hannotations := not_closes_annotationLines p.annotations
  unfold docInner docParts
  rw [List.forall_mem_map]
  by_cases hnil : Class.annotationLines p.annotations = []
  · simp [hnil, htype]
  · simp only [hnil, if_false, List.mem_append, List.mem_cons, List.not_mem_nil, or_false]
    constructor
    · intro hall hcloses
      exact hall _ (.inr (.inr rfl)) (htype.2 hcloses)
    · rintro hopen l (hl | rfl | rfl)
      · exact hannotations l hl
      · exact hblank
      · exact hopen ∘ htype.1

theorem isBlock_constantLines (p : Property) :
    IsBlock p.constantLines p.docInner := by
  apply (isBlock_docComment p.docParts).append_plain
  rw [List.forall_mem_cons]
  exact ⟨ne_opening (by simp [String.toList_append]), by decide⟩

theorem isBlock_declarationLines (p : Property) :
    IsBlock p.declarationLines p.docInner := by
  apply (isBlock_docComment p.docParts).append_plain
  rw [List.forall_mem_cons]
  exact ⟨ne_opening (by simp [String.toList_append]), by decide⟩

/-- The line inside the doc comment of an accessor, if it has one. -/
def accessorDoc (p : Property) (line : String) : List String :=
  if p.signature.needsDoc then [docLine (some line)] else []

theorem isBlock_typeDoc (p : Property) (line : String) :
    IsBlock (p.typeDoc line) (p.accessorDoc line) := by
  unfold typeDoc accessorDoc
  split
  · exact isBlock_docComment [some line]
  · exact fun _ => rfl

/-- No line of a function opens a comment. -/
theorem ne_opening_of_function {signature body : String}
    (hsignature : signature.toList.head? ≠ some '/') (hbody : body.toList.head? ≠ some '/') :
    ∀ l ∈ [signature, "\x7b", body, "\x7d", ""], l ≠ "/**" := by
  simp only [List.forall_mem_cons]
  exact ⟨ne_opening hsignature, by decide, ne_opening hbody, by decide, by decide, by simp⟩

theorem isBlock_getterLines (p : Property) :
    IsBlock p.getterLines (p.accessorDoc ("@return " ++ p.typeName)) := by
  apply (isBlock_typeDoc p _).append_plain
  apply ne_opening_of_function
  · simp [String.toList_append]
  · simp [String.toList_append, indentation]

theorem isBlock_setterLines (p : Property) : IsBlock p.setterLines
    (p.accessorDoc ("@param " ++ p.typeName ++ " $" ++ p.name)) := by
  apply (isBlock_typeDoc p _).append_plain
  apply ne_opening_of_function
  · simp [String.toList_append]
  · simp [String.toList_append, indentation]

/-- The lines inside the doc comments of the accessors. -/
def accessorInner (p : Property) : List String :=
  p.accessorDoc ("@return " ++ p.typeName)
    ++ p.accessorDoc ("@param " ++ p.typeName ++ " $" ++ p.name)

/-- The doc comments of the accessors end early exactly if there are any and the type or the
name does. -/
theorem not_closes_accessorInner_iff :
    (∀ l ∈ p.accessorInner, ¬ Closes l) ↔
      (p.signature.needsDoc = true → ¬ Closes p.typeName ∧ ¬ Closes p.name) := by
  have hreturn : Closes (docLine (some ("@return " ++ p.typeName))) ↔ Closes p.typeName := by
    rw [closes_docLine_iff]
    exact closes_prefix_iff (by decide) (by decide)
  have hparam : Closes (docLine (some ("@param " ++ p.typeName ++ " $" ++ p.name))) ↔
      Closes p.typeName ∨ Closes p.name := by
    have hdollar : (" $" ++ p.name).toList.head? ≠ some '/' := by
      simp [String.toList_append]
    rw [closes_docLine_iff, String.append_assoc, String.append_assoc,
      closes_prefix_iff (by decide) (by decide), closes_append_iff fun h => hdollar h.2,
      closes_prefix_iff (by decide) (by decide)]
  unfold accessorInner accessorDoc
  split
  · rename_i hdoc
    simp [hdoc, hreturn, hparam]
  · rename_i hdoc
    simp [hdoc]

end Property

namespace Class

variable {c : Class}

/-- The lines inside the doc comments of a class and of its members. -/
def linesInComments (c : Class) : List String :=
  commentLines "" false c.docLines ++ commentLines indentation false c.memberLines

/-- The doc comment of a class is made of its banner, its annotations and blank lines. -/
theorem docLines_eq (c : Class) : c.docLines = [] ∨ ∃ ls, c.docLines = docComment ls ∧
    ∀ l ∈ ls, l = none ∨ l = some bannerText ∨ l ∈ annotationLines c.annotations := by
  have hbanner : ∀ l ∈ (if c.banner then [some bannerText] else []), l = some bannerText := by
    split <;> simp
  unfold docLines
  generalize (if c.banner then [some bannerText] else []) = banner at *
  generalize annotationLines c.annotations = annotations
  by_cases hempty : (banner = [] && annotations = []) = true
  · rw [if_pos hempty]
    exact .inl rfl
  · rw [if_neg hempty]
    right
    by_cases hone : (banner = [] || annotations = []) = true
    · refine ⟨banner ++ annotations, if_pos hone, ?_⟩
      rw [List.forall_mem_append]
      exact ⟨fun l hl => .inr (.inl (hbanner l hl)), fun l hl => .inr (.inr hl)⟩
    · refine ⟨banner ++ none :: annotations, if_neg hone, ?_⟩
      rw [List.forall_mem_append, List.forall_mem_cons]
      exact ⟨fun l hl => .inr (.inl (hbanner l hl)), .inl rfl, fun l hl => .inr (.inr hl)⟩

theorem not_closes_docLines (c : Class) :
    ∀ l ∈ commentLines "" false c.docLines, ¬ Closes l := by
  rcases docLines_eq c with hempty | ⟨ls, hdoc, hls⟩
  · rw [hempty]
    exact List.forall_mem_nil _
  · rw [hdoc, (isBlock_docComment ls).commentLines_eq, List.forall_mem_map]
    intro l hl
    rcases hls l hl with rfl | rfl | htag
    · decide
    · decide +kernel
    · exact not_closes_annotationLines c.annotations l htag

theorem isBlock_constructorLines (c : Class) : IsBlock c.constructorLines [] := by
  have hassignments : ∀ l ∈ c.members.filterMap Property.assignment?, l ≠ "/**" := by
    intro l hl
    obtain ⟨p, _, hp⟩ := List.mem_filterMap.1 hl
    obtain ⟨d, _, rfl⟩ := Option.map_eq_some_iff.1 hp
    exact ne_opening (by simp [String.toList_append, indentation])
  unfold constructorLines
  split
  · exact fun _ => rfl
  · apply IsBlock.of_plain
    rw [List.cons_append, List.cons_append, List.forall_mem_cons, List.forall_mem_cons,
      List.forall_mem_append]
    exact ⟨by decide, by decide, hassignments, by decide⟩

/-- The lines inside the doc comments of the members of a class. -/
theorem commentLines_memberLines (c : Class) : commentLines indentation false c.memberLines =
    (c.constants.flatMap Property.docInner ++ c.members.flatMap Property.docInner ++ []
      ++ c.members.flatMap Property.accessorInner).map indentLine := by
  have hlines : c.memberLines = indent (c.constants.flatMap Property.constantLines
      ++ c.members.flatMap Property.declarationLines ++ c.constructorLines
      ++ c.members.flatMap fun p => p.getterLines ++ p.setterLines) := by
    simp [memberLines, indent]
  have hconstants : IsBlock (c.constants.flatMap Property.constantLines)
      (c.constants.flatMap Property.docInner) :=
    .flatMap fun p _ => p.isBlock_constantLines
  have hdeclarations : IsBlock (c.members.flatMap Property.declarationLines)
      (c.members.flatMap Property.docInner) :=
    .flatMap fun p _ => p.isBlock_declarationLines
  have haccessors : IsBlock (c.members.flatMap fun p => p.getterLines ++ p.setterLines)
      (c.members.flatMap Property.accessorInner) :=
    .flatMap fun p _ => p.isBlock_getterLines.append p.isBlock_setterLines
  have hall := ((hconstants.append hdeclarations).append c.isBlock_constructorLines).append
    haccessors
  rw [hlines, commentLines_indent, hall.commentLines_eq]

/-- The properties of a class are its constants and its members. -/
theorem forall_properties_iff (c : Class) (P : Property → Prop) :
    (∀ p ∈ c.properties.values, P p) ↔ (∀ p ∈ c.constants, P p) ∧ ∀ p ∈ c.members, P p := by
  constructor
  · intro h
    exact ⟨fun p hp => h p (List.mem_filter.1 hp).1, fun p hp => h p (List.mem_filter.1 hp).1⟩
  · rintro ⟨hconstants, hmembers⟩ p hp
    by_cases hconstant : p.isConstant = true
    · exact hconstants p (List.mem_filter.2 ⟨hp, hconstant⟩)
    · exact hmembers p (List.mem_filter.2 ⟨hp, by simpa using hconstant⟩)

/-- A class whose properties are all of one kind. -/
theorem constants_members_eq {c : Class} {b : Bool}
    (h : ∀ p ∈ c.properties.values, p.isConstant = b) :
    c.constants = (if b then c.properties.values else []) ∧
      c.members = if b then [] else c.properties.values := by
  unfold constants members
  cases b with
  | true =>
    simp only [if_true, List.filter_eq_self, List.filter_eq_nil_iff]
    exact ⟨h, fun p hp => by simp [h p hp]⟩
  | false =>
    simp only [Bool.false_eq_true, if_false, List.filter_eq_self, List.filter_eq_nil_iff]
    exact ⟨fun p hp => by simp [h p hp], fun p hp => by simp [h p hp]⟩

/-- The comments of a class hold exactly if no type of a property ends one early, and no name
of a property whose accessors are documented does. -/
theorem not_closes_iff (c : Class) : (∀ l ∈ c.linesInComments, ¬ Closes l) ↔
    (∀ p ∈ c.properties.values, ¬ Closes p.typeName) ∧
      ∀ p ∈ c.members, p.signature.needsDoc = true → ¬ Closes p.name := by
  have hmembers : (∀ l ∈ commentLines indentation false c.memberLines, ¬ Closes l) ↔
      (∀ p ∈ c.constants, ¬ Closes p.typeName) ∧ (∀ p ∈ c.members, ¬ Closes p.typeName) ∧
        ∀ p ∈ c.members, p.signature.needsDoc = true → ¬ Closes p.typeName ∧ ¬ Closes p.name := by
    rw [commentLines_memberLines, List.append_nil, List.forall_mem_map]
    simp only [closes_indentLine_iff, List.forall_mem_append, List.forall_mem_flatMap,
      Property.not_closes_docInner_iff, Property.not_closes_accessorInner_iff, and_assoc]
  unfold linesInComments
  rw [List.forall_mem_append, hmembers, forall_properties_iff]
  constructor
  · rintro ⟨_, hconstants, htypes, haccessors⟩
    exact ⟨⟨hconstants, htypes⟩, fun p hp hdoc => (haccessors p hp hdoc).2⟩
  · rintro ⟨⟨hconstants, htypes⟩, hnames⟩
    refine ⟨not_closes_docLines c, hconstants, htypes, ?_⟩
    exact fun p hp hdoc => ⟨htypes p hp, hnames p hp hdoc⟩

end Class
end OrmGen.Php
