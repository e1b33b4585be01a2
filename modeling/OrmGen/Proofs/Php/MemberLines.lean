/-
  The lines that declare the members of a class. One line each declares a constant, a
  property, the constructor, a getter and a setter (`Class.memberHeads`): it stands one level
  deep and starts with a letter. Around these lines are doc comments, braces and statements,
  and above the members no line is indented.

  A reader of lines that finds nothing on a line that is not indented, and nothing on one that
  goes on with another character than a letter (`Reads`), finds in a class what it finds on
  those lines and in the body, whatever else the class says (`Reads.filterMap_lines`).
-/
import OrmGen.Proofs.Php.DocComment
import OrmGen.Proofs.Text.Pieces

namespace OrmGen.Php

variable {keyword s line : String} {ls : List String} {c : Class} {α : Type}
  {f g : String → Option α}

/-! ## Lines that start with a keyword -/

/-- What follows on a line that starts with the keyword. -/
def declaration? (keyword line : String) : Option String :=
  (keyword.toList.isPrefixOf? line.toList).map String.ofList

theorem declaration?_eq_some_iff : declaration? keyword line = some s ↔ line = keyword ++ s := by
  unfold declaration?
  rw [Option.map_eq_some_iff]
  constructor
  · rintro ⟨rest, hrest, rfl⟩
    rw [← String.toList_inj, String.toList_append, String.toList_ofList]
    exact Text.eq_append_of_isPrefixOf? hrest
  · rintro rfl
    exact ⟨s.toList, by rw [String.toList_append, Text.isPrefixOf?_append], String.ofList_toList⟩

theorem declaration?_append : declaration? keyword (keyword ++ s) = some s :=
  declaration?_eq_some_iff.2 rfl

/-- A line that starts with another character declares nothing. -/
theorem declaration?_eq_none {a : Char} (hkeyword : keyword.toList.head? = some a)
    (hline : line.toList.head? ≠ some a) : declaration? keyword line = none := by
  rw [Option.eq_none_iff_forall_ne_some]
  intro rest hrest
  apply hline
  rw [declaration?_eq_some_iff.1 hrest, String.toList_append, List.head?_append, hkeyword]
  rfl

/-- What an indented line declares. -/
theorem declaration?_indentation :
    declaration? (indentation ++ keyword) (indentation ++ line) = declaration? keyword line := by
  unfold declaration?
  simp [indentation, String.toList_append, List.isPrefixOf?]

/-! ## Readers of lines -/

/-- A line that is not indented. -/
def IsShallow (line : String) : Prop := declaration? indentation line = none

instance (line : String) : Decidable (IsShallow line) := inferInstanceAs (Decidable (_ = _))

/-- A line that does not start with a letter. -/
def IsPlain (line : String) : Prop := line.toList.head?.any Char.isAlpha = false

instance (line : String) : Decidable (IsPlain line) := inferInstanceAs (Decidable (_ = _))

theorem isShallow_of_head (h : line.toList.head? ≠ some ' ') : IsShallow line :=
  declaration?_eq_none (a := ' ') rfl h

/-- The reader `f` finds nothing on a line that is not indented; on one that is, it finds what
`g` finds without the indentation, which is nothing unless a letter comes next. -/
structure Reads (f g : String → Option α) : Prop where
  shallow : ∀ {l}, IsShallow l → f l = none
  indented : ∀ l, f (indentation ++ l) = g l
  plain : ∀ {l}, IsPlain l → g l = none

/-- A reader of what follows a keyword. -/
theorem reads_declaration (h : keyword.toList.head?.any Char.isAlpha = true) :
    Reads (declaration? (indentation ++ keyword)) (declaration? keyword) where
  shallow := by
    intro l hl
    rw [Option.eq_none_iff_forall_ne_some]
    intro rest hrest
    have hindented : declaration? indentation l = some (keyword ++ rest) := by
      rw [declaration?_eq_some_iff, declaration?_eq_some_iff.1 hrest, String.append_assoc]
    exact Option.some_ne_none _ (hindented.symm.trans hl)
  indented _ := declaration?_indentation
  plain := by
    intro l hl
    obtain ⟨a, ha, halpha⟩ := (Option.any_eq_true _ _).1 h
    apply declaration?_eq_none ha
    intro hhead
    unfold IsPlain at hl
    rw [hhead, Option.any_some, halpha] at hl
    cases hl

namespace Reads

theorem filterMap_indent (h : Reads f g) : (indent ls).filterMap f = ls.filterMap g := by
  unfold indent
  rw [List.filterMap_map]
  apply List.filterMap_congr
  intro l _
  by_cases hl : l = ""
  · subst hl
    show f "" = g ""
    rw [h.shallow (by decide), h.plain (by decide)]
  · simp only [Function.comp_apply, if_neg hl]
    exact h.indented l

theorem filterMap_of_isPlain (h : Reads f g) (hls : ∀ l ∈ ls, IsPlain l) : ls.filterMap g = [] :=
  List.filterMap_eq_nil_iff.2 fun l hl => h.plain (hls l hl)

/-- Of lines among which one starts with a letter, that one decides what is found. -/
theorem filterMap_around (h : Reads f g) (line : String) {before after : List String}
    (hbefore : ∀ l ∈ before, IsPlain l) (hafter : ∀ l ∈ after, IsPlain l) :
    (before ++ line :: after).filterMap g = [line].filterMap g := by
  rw [List.filterMap_append, List.filterMap_cons, h.filterMap_of_isPlain hbefore,
    h.filterMap_of_isPlain hafter]
  rfl

end Reads

/-! ## Members -/

theorem isPlain_docComment (parts : List (Option String)) : ∀ l ∈ docComment parts, IsPlain l := by
  intro l hl
  unfold docComment at hl
  rw [List.cons_append, List.mem_cons, List.mem_append, List.mem_map, List.mem_singleton] at hl
  rcases hl with rfl | ⟨part, _, rfl⟩ | rfl
  · decide
  · cases part with
    | none => decide
    | some text => simp [IsPlain, docLine, String.toList_append]
  · decide

namespace Property

/-- What the line of a constant says after the keyword. -/
def constantDeclaration (p : Property) : String :=
  constantName p.name ++ " = " ++ sanitizeLiteral (p.default.getD "") ++ ";"

/-- The line that declares a constant. -/
def constantHead (p : Property) : String := "const " ++ p.constantDeclaration

/-- The line that declares a property. -/
def propertyHead (p : Property) : String := "protected $" ++ (p.name ++ ";")

/-- The line that declares an accessor of a kind, with what follows the opening parenthesis. -/
def accessorHead (kind : String) (p : Property) (rest : String) : String :=
  "public function " ++ (kind ++ accessorSuffix p.name ++ ("(" ++ rest))

theorem accessorHead_eq (kind : String) (p : Property) (rest : String) : accessorHead kind p rest =
    "public function " ++ (kind ++ accessorSuffix p.name ++ ("(" ++ rest)) :=
  rfl

/-- What follows the opening parenthesis of a getter. -/
def getterRest (p : Property) : String :=
  ")" ++ match p.signature.hint? with
    | some hint => ": " ++ hint
    | none => ""

/-- What follows the opening parenthesis of a setter. -/
def setterRest (p : Property) : String :=
  (match p.signature.hint? with
    | some hint => hint ++ " "
    | none => "") ++ "$" ++ p.name ++ "): void"

theorem constantLines_eq (p : Property) : p.constantLines = p.docLines ++ [p.constantHead, ""] := by
  have hhead : "const " ++ constantName p.name ++ " = " ++ sanitizeLiteral (p.default.getD "")
      ++ ";" = p.constantHead := by
    simp only [constantHead, constantDeclaration, String.append_assoc]
  unfold constantLines
  rw [hhead]

theorem declarationLines_eq (p : Property) :
    p.declarationLines = p.docLines ++ [p.propertyHead, ""] := by
  unfold declarationLines propertyHead
  rw [String.append_assoc]

theorem getterLines_eq (p : Property) : p.getterLines = p.typeDoc ("@return " ++ p.typeName) ++
    [accessorHead "get" p p.getterRest, "\x7b", indentation ++ "return $this->" ++ p.name ++ ";",
      "\x7d", ""] := by
  have hhead (result : String) : "public function get" ++ accessorSuffix p.name ++ "()" ++ result =
      accessorHead "get" p (")" ++ result) := by
    simp [accessorHead_eq, ← String.toList_inj, String.toList_append]
  rw [getterRest, ← hhead]
  rfl

theorem setterLines_eq (p : Property) :
    p.setterLines = p.typeDoc ("@param " ++ p.typeName ++ " $" ++ p.name) ++
      [accessorHead "set" p p.setterRest, "\x7b",
        indentation ++ "$this->" ++ p.name ++ " = $" ++ p.name ++ ";", "\x7d", ""] := by
  have hhead (type : String) : "public function set" ++ accessorSuffix p.name ++ "(" ++ type ++ "$"
      ++ p.name ++ "): void" = accessorHead "set" p (type ++ "$" ++ p.name ++ "): void") := by
    simp [accessorHead_eq, ← String.toList_inj, String.toList_append]
  rw [setterRest, ← hhead]
  rfl

theorem isPlain_docLines (p : Property) : ∀ l ∈ p.docLines, IsPlain l := isPlain_docComment _

theorem isPlain_typeDoc (p : Property) (line : String) : ∀ l ∈ p.typeDoc line, IsPlain l := by
  unfold typeDoc
  split
  · exact isPlain_docComment _
  · exact List.forall_mem_nil _

/-- The lines of an accessor below the one that declares it. -/
theorem isPlain_accessorBody {body : String} (h : IsPlain body) :
    ∀ l ∈ ["\x7b", body, "\x7d", ""], IsPlain l := by
  simp only [List.forall_mem_cons]
  exact ⟨by decide, h, by decide, by decide, List.forall_mem_nil _⟩

end Property

namespace Reads

theorem constantLines (h : Reads f g) (p : Property) :
    p.constantLines.filterMap g = [p.constantHead].filterMap g := by
  rw [p.constantLines_eq]
  exact h.filterMap_around _ p.isPlain_docLines (by decide)

theorem declarationLines (h : Reads f g) (p : Property) :
    p.declarationLines.filterMap g = [p.propertyHead].filterMap g := by
  rw [p.declarationLines_eq]
  exact h.filterMap_around _ p.isPlain_docLines (by decide)

theorem getterLines (h : Reads f g) (p : Property) :
    p.getterLines.filterMap g = [Property.accessorHead "get" p p.getterRest].filterMap g := by
  have hbody : IsPlain (indentation ++ "return $this->" ++ p.name ++ ";") := by
    simp [IsPlain, String.toList_append, indentation]
  rw [p.getterLines_eq]
  exact h.filterMap_around _ (p.isPlain_typeDoc _) (Property.isPlain_accessorBody hbody)

theorem setterLines (h : Reads f g) (p : Property) :
    p.setterLines.filterMap g = [Property.accessorHead "set" p p.setterRest].filterMap g := by
  have hbody : IsPlain (indentation ++ "$this->" ++ p.name ++ " = $" ++ p.name ++ ";") := by
    simp [IsPlain, String.toList_append, indentation]
  rw [p.setterLines_eq]
  exact h.filterMap_around _ (p.isPlain_typeDoc _) (Property.isPlain_accessorBody hbody)

end Reads

/-! ## Classes -/

namespace Class

/-- The line that declares the constructor, if there is one. -/
def constructorHead (c : Class) : List String :=
  if c.members.filterMap Property.assignment? = [] then [] else ["public function __construct()"]

/-- The lines that declare the members of a class, in their order. -/
def memberHeads (c : Class) : List String :=
  c.constants.map Property.constantHead ++ c.members.map Property.propertyHead
    ++ c.constructorHead ++ c.members.flatMap fun p =>
      [Property.accessorHead "get" p p.getterRest, Property.accessorHead "set" p p.setterRest]

theorem isShallow_docLines (c : Class) : ∀ l ∈ c.docLines, IsShallow l := by
  rcases docLines_eq c with hempty | ⟨parts, hparts, _⟩
  · rw [hempty]
    exact List.forall_mem_nil _
  · rw [hparts]
    unfold docComment
    rw [List.forall_mem_append, List.forall_mem_cons, List.forall_mem_map]
    refine ⟨⟨by decide, ?_⟩, by decide⟩
    intro part _
    cases part with
    | none => decide
    | some text =>
      simp [IsShallow, declaration?, docLine, indentation, String.toList_append, List.isPrefixOf?]

/-- A class opens with its first modifier or with the word `class`. -/
theorem isShallow_openingLine (h : ∀ m ∈ c.modifiers, m ≠ "" ∧ m.toList.head? ≠ some ' ') :
    IsShallow c.openingLine := by
  apply isShallow_of_head
  unfold openingLine
  cases hmodifiers : c.modifiers with
  | nil => simp [String.toList_append]
  | cons m ms =>
    obtain ⟨hne, hhead⟩ := h m (hmodifiers ▸ List.mem_cons_self)
    have hm : m.toList ≠ [] := fun hnil => hne (String.toList_inj.1 hnil)
    obtain ⟨rest, hrest⟩ : ∃ rest, (" ".intercalate (m :: ms)).toList = m.toList ++ rest := by
      rw [String.toList_intercalate, List.map_cons]
      cases ms with
      | nil => exact ⟨[], by simp⟩
      | cons n ms =>
        rw [List.map_cons, List.intercalate_cons_of_ne_nil (List.cons_ne_nil _ _)]
        exact ⟨_, List.append_assoc _ _ _⟩
    have hjoined : " ".intercalate (m :: ms) ≠ "" := by
      intro hempty
      rw [hempty] at hrest
      exact hm (List.append_eq_nil_iff.1 hrest.symm).1
    simp only [if_neg hjoined, String.toList_append, hrest, List.append_assoc]
    rw [List.head?_append_of_ne_nil _ hm]
    exact hhead

/-- Above the members nothing is indented. -/
theorem isShallow_above (hopening : IsShallow c.openingLine) :
    ∀ l ∈ ["<?php", "", "namespace " ++ c.ns ++ ";", ""] ++ c.importLines ++ [""] ++ c.docLines
      ++ [c.openingLine, "\x7b"], IsShallow l := by
  have himports : ∀ l ∈ c.importLines, IsShallow l := by
    intro l hl
    obtain ⟨statement, _, rfl⟩ := List.mem_map.1 hl
    exact isShallow_of_head (by simp [String.toList_append])
  have hns : IsShallow ("namespace " ++ c.ns ++ ";") :=
    isShallow_of_head (by simp [String.toList_append])
  have hnil : ∀ l ∈ ([] : List String), IsShallow l := List.forall_mem_nil _
  simp only [List.forall_mem_append, List.forall_mem_cons]
  exact ⟨⟨⟨⟨⟨by decide, by decide, hns, by decide, hnil⟩, himports⟩, by decide, hnil⟩,
    isShallow_docLines c⟩, hopening, by decide, hnil⟩

theorem bodyLines_eq_nil (h : c.body = none) : c.bodyLines = [] := by
  unfold bodyLines
  rw [h]
  rfl

theorem filterMap_dropLastBlank (hblank : f "" = none) :
    (dropLastBlank ls).filterMap f = ls.filterMap f := by
  unfold dropLastBlank
  split
  · rename_i hlast
    obtain ⟨front, rfl⟩ := List.getLast?_eq_some_iff.1 hlast
    simp [hblank]
  · rfl

end Class

namespace Reads

/-- In the constructor only the line that declares it starts with a letter. -/
theorem constructorLines (h : Reads f g) (c : Class) :
    c.constructorLines.filterMap g = c.constructorHead.filterMap g := by
  have hassignments : ∀ l ∈ c.members.filterMap Property.assignment?, IsPlain l := by
    intro l hl
    obtain ⟨p, _, hp⟩ := List.mem_filterMap.1 hl
    obtain ⟨d, _, rfl⟩ := Option.map_eq_some_iff.1 hp
    simp [IsPlain, indentation, String.toList_append]
  have hbody : ∀ l ∈ "\x7b" :: c.members.filterMap Property.assignment? ++ ["\x7d", ""],
      IsPlain l := by
    rw [List.cons_append, List.forall_mem_cons, List.forall_mem_append]
    exact ⟨by decide, hassignments, by decide⟩
  unfold Class.constructorLines Class.constructorHead
  split
  · rename_i hnone
    rw [if_pos hnone]
  · rename_i hsome
    rw [if_neg hsome]
    exact h.filterMap_around "public function __construct()" (List.forall_mem_nil _) hbody

theorem memberLines (h : Reads f g) (c : Class) :
    c.memberLines.filterMap f = c.memberHeads.filterMap g := by
  have hpair (s t : String) : [s, t].filterMap g = [s].filterMap g ++ [t].filterMap g := by
    rw [← List.filterMap_append]
    rfl
  unfold Class.memberLines Class.memberHeads
  rw [List.map_eq_flatMap, List.map_eq_flatMap]
  simp only [List.filterMap_append, h.filterMap_indent, List.filterMap_flatMap, h.constantLines,
    h.declarationLines, h.constructorLines, h.getterLines, h.setterLines, hpair]

/-- What is found in the lines of a class stands on the lines that declare its members, or in
the body. -/
theorem filterMap_lines (h : Reads f g) (hopening : IsShallow c.openingLine) :
    c.lines.filterMap f = c.memberHeads.filterMap g ++ c.bodyLines.filterMap f := by
  have hhead := List.filterMap_eq_nil_iff.2 fun l hl =>
    h.shallow (Class.isShallow_above hopening l hl)
  have hblank := h.shallow (l := "") (by decide)
  have hclose := h.shallow (l := "\x7d") (by decide)
  unfold Class.lines
  rw [List.filterMap_append, List.filterMap_append, hhead, Class.filterMap_dropLastBlank hblank,
    List.filterMap_append, h.memberLines, List.nil_append]
  simp [hblank, hclose]

theorem filterMap_lines_of_body (h : Reads f g) (hopening : IsShallow c.openingLine)
    (hbody : c.body = none) : c.lines.filterMap f = c.memberHeads.filterMap g := by
  rw [h.filterMap_lines hopening, Class.bodyLines_eq_nil hbody, List.filterMap_nil,
    List.append_nil]

end Reads
end OrmGen.Php
