/-
  Line breaks in the text of a class. Its lines hold the texts of the class, filtered or as they
  are, so where these have no line breaks (`Class.IsReadable`) no line has one
  (`Class.newline_notMem_lines`), and the text splits into its lines (`Class.textLines_text`).

  Names are identifiers, and the name of a parent is always filtered. The type hint of an
  accessor is made of the members of a declared type.
-/
import OrmGen.Proofs.Php.NameResolution
import OrmGen.Proofs.Php.UpperNames

namespace OrmGen.Php

/-- The lines of a text. -/
def textLines (s : String) : List String := (s.toList.splitOn '\n').map String.ofList

/-- A property that is named by an identifier and whose other texts have no line breaks. -/
structure Property.IsReadable (p : Property) : Prop where
  name : isIdentifier p.name = true
  typeName : '\n' ∉ p.typeName.toList
  annotations : ∀ a ∈ p.annotations, '\n' ∉ a.toList
  default : ∀ d ∈ p.default, '\n' ∉ d.toList

/-- A class without a body that is named by identifiers, and whose other texts have no line
breaks. -/
structure Class.IsReadable (c : Class) : Prop where
  name : isIdentifier c.name = true
  modifiers : ∀ m ∈ c.modifiers, isIdentifier m = true
  body : c.body = none
  ns : '\n' ∉ c.ns.toList
  imports : ∀ i ∈ c.imports.imports, '\n' ∉ i.path.toList ∧ '\n' ∉ i.name.toList
  annotations : ∀ a ∈ c.annotations, '\n' ∉ a.toList
  properties : ∀ p ∈ c.properties.values, p.IsReadable

variable {c : Class} {p : Property} {s : String} {ls : List String}

/-! ## Filtered texts -/

theorem newline_notMem_of_isIdentifier (h : isIdentifier s = true) : '\n' ∉ s.toList :=
  notMem_of_isIdentifier h (by decide)

theorem isName_of_isIdentifier (h : isIdentifier s = true) : isName s = true := by
  apply List.all_eq_true.2
  intro ch hch
  have hword := List.all_eq_true.1 (isIdentifier_iff.1 h).2 ch hch
  unfold isNameChar isLetterOrDigit
  rw [hword, Bool.true_or]

theorem newline_notMem_keep {q : Char → Bool} (h : '\n' ∉ s.toList) : '\n' ∉ (keep q s).toList := by
  unfold keep
  rw [String.toList_ofList]
  exact fun hmem => h (List.mem_of_mem_filter hmem)

theorem newline_notMem_sanitizeLiteral (h : '\n' ∉ s.toList) :
    '\n' ∉ (sanitizeLiteral s).toList := by
  unfold sanitizeLiteral
  dsimp only
  split
  · decide
  · exact newline_notMem_keep h

theorem dropClosers_sublist (cs : List Char) : (dropClosers cs).Sublist cs := by
  fun_induction dropClosers cs with
  | case1 cs ih => exact (ih.cons '/').cons '*'
  | case2 ch cs _ ih => exact ih.cons_cons ch
  | case3 => exact List.Sublist.refl []

theorem withoutClosers_sublist (cs : List Char) : (withoutClosers cs).Sublist cs := by
  fun_induction withoutClosers cs with
  | case1 cs _ ih => exact ih.trans (dropClosers_sublist cs)
  | case2 cs => exact List.Sublist.refl cs

theorem newline_notMem_sanitizeTag (h : '\n' ∉ s.toList) : '\n' ∉ (sanitizeTag s).toList := by
  unfold sanitizeTag
  rw [String.toList_ofList]
  exact fun hmem => h ((withoutClosers_sublist _).subset hmem)

/-! ## Type hints -/

theorem newline_notMem_members (h : '\n' ∉ s.toList) :
    ∀ m ∈ Signature.members s, '\n' ∉ m.toList := by
  intro m hm
  unfold Signature.members at hm
  obtain ⟨part, hpart, rfl⟩ := List.mem_map.1 (List.mem_filter.1 (List.mem_eraseDups.1 hm)).1
  rw [String.toList_ofList]
  exact fun hmem => h (Text.mem_of_mem_splitOn hpart (Text.mem_of_mem_stripBy hmem))

/-- A hint is one member of the declared type, or a word of its own, with a mark in front. -/
theorem newline_notMem_hint (h : '\n' ∉ s.toList) :
    ∀ hint ∈ (Signature.ofDeclared s).hint?, '\n' ∉ hint.toList := by
  have hmark : '\n' ∉ (if (Signature.members s).contains "null" then "?" else "").toList := by
    split <;> decide
  have hmembers : ∀ m ∈ (Signature.members s).filter (· ≠ "null"), '\n' ∉ m.toList :=
    fun m hm => newline_notMem_members h m (List.mem_of_mem_filter hm)
  unfold Signature.ofDeclared
  dsimp only
  generalize (if (Signature.members s).contains "null" then "?" else "") = mark at *
  split
  · rename_i m hm
    rw [hm, List.forall_mem_singleton] at hmembers
    split
    · simp [Signature.hint?, String.toList_append, hmark]
    · simp [Signature.hint?, String.toList_append, hmark, hmembers]
  · split
    · simp [Signature.hint?]
    · simp [Signature.hint?]
  · simp [Signature.hint?]

/-! ## Members -/

theorem newline_notMem_docComment {parts : List (Option String)}
    (h : ∀ part ∈ parts, ∀ s ∈ part, '\n' ∉ s.toList) :
    ∀ l ∈ docComment parts, '\n' ∉ l.toList := by
  unfold docComment
  rw [List.forall_mem_append, List.forall_mem_cons, List.forall_mem_map]
  refine ⟨⟨by decide, ?_⟩, by decide⟩
  intro part hpart
  cases part with
  | none => decide
  | some s => simp [docLine, String.toList_append, h (some s) hpart s rfl]

theorem newline_notMem_annotationLines {annotations : List String}
    (h : ∀ a ∈ annotations, '\n' ∉ a.toList) :
    ∀ part ∈ Class.annotationLines annotations, ∀ s ∈ part, '\n' ∉ s.toList := by
  unfold Class.annotationLines
  rw [List.forall_mem_map]
  intro a ha s hs
  obtain rfl : sanitizeTag a = s := Option.some.inj hs
  exact newline_notMem_sanitizeTag (h a ha)

theorem Property.newline_notMem_typeDoc (p : Property) {line : String}
    (hline : '\n' ∉ line.toList) : ∀ l ∈ p.typeDoc line, '\n' ∉ l.toList := by
  unfold typeDoc
  split
  · apply newline_notMem_docComment
    simpa using hline
  · exact List.forall_mem_nil _

namespace Property.IsReadable

variable (h : p.IsReadable)
include h

theorem newline_notMem_docLines : ∀ l ∈ p.docLines, '\n' ∉ l.toList := by
  have hannotations := newline_notMem_annotationLines h.annotations
  have htype : ∀ s ∈ some ("@var " ++ p.typeName), '\n' ∉ s.toList := by
    simp [String.toList_append, h.typeName]
  unfold docLines
  apply newline_notMem_docComment
  split
  · rwa [List.forall_mem_singleton]
  · rw [List.forall_mem_append, List.forall_mem_cons, List.forall_mem_singleton]
    exact ⟨hannotations, by simp, htype⟩

theorem newline_notMem_accessorHead {kind rest : String} (hkind : '\n' ∉ kind.toList)
    (hrest : '\n' ∉ rest.toList) : '\n' ∉ (accessorHead kind p rest).toList := by
  have hsuffix := notMem_of_isName (isName_accessorSuffix (isName_of_isIdentifier h.name))
    (c := '\n') (by decide)
  simp [accessorHead_eq, String.toList_append, hkind, hrest, hsuffix]

theorem newline_notMem_constantLines : ∀ l ∈ p.constantLines, '\n' ∉ l.toList := by
  have hname := notMem_of_isName (isName_constantName (isName_of_isIdentifier h.name))
    (c := '\n') (by decide)
  have hdefault : '\n' ∉ (p.default.getD "").toList := by
    cases hd : p.default with
    | none => decide
    | some d => exact h.default d hd
  have hliteral := newline_notMem_sanitizeLiteral hdefault
  rw [constantLines_eq, List.forall_mem_append, List.forall_mem_cons, List.forall_mem_singleton]
  refine ⟨h.newline_notMem_docLines, ?_, by decide⟩
  simp [constantHead, constantDeclaration, String.toList_append, hname, hliteral]

theorem newline_notMem_declarationLines : ∀ l ∈ p.declarationLines, '\n' ∉ l.toList := by
  have hname := newline_notMem_of_isIdentifier h.name
  rw [declarationLines_eq, List.forall_mem_append, List.forall_mem_cons, List.forall_mem_singleton]
  refine ⟨h.newline_notMem_docLines, ?_, by decide⟩
  simp [propertyHead, String.toList_append, hname]

theorem newline_notMem_getterLines : ∀ l ∈ p.getterLines, '\n' ∉ l.toList := by
  have hname := newline_notMem_of_isIdentifier h.name
  have hrest : '\n' ∉ p.getterRest.toList := by
    have hhint := newline_notMem_hint h.typeName
    unfold getterRest signature
    cases hs : (Signature.ofDeclared p.typeName).hint? with
    | none => decide
    | some hint => simp [String.toList_append, hhint hint hs]
  rw [getterLines_eq, List.forall_mem_append]
  refine ⟨p.newline_notMem_typeDoc (by simp [String.toList_append, h.typeName]), ?_⟩
  simp only [List.forall_mem_cons]
  refine ⟨h.newline_notMem_accessorHead (by decide) hrest, by decide, ?_, by decide, by decide,
    List.forall_mem_nil _⟩
  simp [String.toList_append, indentation, hname]

theorem newline_notMem_setterLines : ∀ l ∈ p.setterLines, '\n' ∉ l.toList := by
  have hname := newline_notMem_of_isIdentifier h.name
  have hrest : '\n' ∉ p.setterRest.toList := by
    have hhint := newline_notMem_hint h.typeName
    unfold setterRest signature
    cases hs : (Signature.ofDeclared p.typeName).hint? with
    | none => simp [String.toList_append, hname]
    | some hint => simp [String.toList_append, hname, hhint hint hs]
  rw [setterLines_eq, List.forall_mem_append]
  refine ⟨p.newline_notMem_typeDoc (by simp [String.toList_append, h.typeName, hname]), ?_⟩
  simp only [List.forall_mem_cons]
  refine ⟨h.newline_notMem_accessorHead (by decide) hrest, by decide, ?_, by decide, by decide,
    List.forall_mem_nil _⟩
  simp [String.toList_append, indentation, hname]

theorem newline_notMem_assignment : ∀ l ∈ p.assignment?, '\n' ∉ l.toList := by
  intro l hl
  obtain ⟨d, hd, rfl⟩ := Option.map_eq_some_iff.1 hl
  have hname := newline_notMem_of_isIdentifier h.name
  have hliteral := newline_notMem_sanitizeLiteral (h.default d hd)
  simp [String.toList_append, indentation, hname, hliteral]

end Property.IsReadable

/-! ## Classes -/

theorem newline_notMem_indent (h : ∀ l ∈ ls, '\n' ∉ l.toList) :
    ∀ l ∈ indent ls, '\n' ∉ l.toList := by
  unfold indent
  rw [List.forall_mem_map]
  intro l hl
  split
  · exact h l hl
  · simp [String.toList_append, indentation, h l hl]

namespace Class

theorem mem_of_mem_dropLastBlank {l : String} (h : l ∈ dropLastBlank ls) : l ∈ ls := by
  unfold dropLastBlank at h
  split at h
  · exact List.mem_of_mem_dropLast h
  · exact h

namespace IsReadable

variable (h : c.IsReadable)
include h

theorem member (hp : p ∈ c.members) : p.IsReadable := h.properties p (List.mem_of_mem_filter hp)

theorem constant (hp : p ∈ c.constants) : p.IsReadable := h.properties p (List.mem_of_mem_filter hp)

theorem newline_notMem_importLines : ∀ l ∈ c.importLines, '\n' ∉ l.toList := by
  intro l hl
  obtain ⟨statement, hstatement, rfl⟩ := List.mem_map.1 hl
  obtain ⟨i, hi, rfl⟩ := List.mem_map.1 hstatement
  obtain ⟨hpath, hname⟩ := h.imports i (List.mem_of_mem_filter hi)
  have hwritten : '\n' ∉ (keep isImportChar i.statement).toList := by
    apply newline_notMem_keep
    unfold Import.statement
    split
    · exact hpath
    · simp [String.toList_append, hpath, hname]
  simp [String.toList_append, hwritten]

theorem newline_notMem_docLines : ∀ l ∈ c.docLines, '\n' ∉ l.toList := by
  rcases docLines_eq c with hempty | ⟨parts, hdoc, hparts⟩
  · rw [hempty]
    exact List.forall_mem_nil _
  · rw [hdoc]
    apply newline_notMem_docComment
    intro part hpart s hs
    rcases hparts part hpart with rfl | rfl | hannotation
    · cases hs
    · obtain rfl : bannerText = s := Option.some.inj hs
      decide +kernel
    · exact newline_notMem_annotationLines h.annotations part hannotation s hs

theorem newline_notMem_openingLine : '\n' ∉ c.openingLine.toList := by
  have hmodifiers : '\n' ∉ (" ".intercalate c.modifiers).toList := by
    intro hmem
    rcases Text.mem_intercalate hmem with hblank | ⟨m, hm, hnewline⟩
    · exact absurd hblank (by decide)
    · exact newline_notMem_of_isIdentifier (h.modifiers m hm) hnewline
  have hname := newline_notMem_of_isIdentifier h.name
  have hparent := newline_notMem_parentClause c
  unfold openingLine
  generalize " ".intercalate c.modifiers = modifiers at *
  dsimp only
  split
  · simp [String.toList_append, hname, hparent]
  · simp [String.toList_append, hmodifiers, hname, hparent]

theorem newline_notMem_constructorLines : ∀ l ∈ c.constructorLines, '\n' ∉ l.toList := by
  have hassignments : ∀ l ∈ c.members.filterMap Property.assignment?, '\n' ∉ l.toList := by
    intro l hl
    obtain ⟨p, hp, hline⟩ := List.mem_filterMap.1 hl
    exact (h.member hp).newline_notMem_assignment l hline
  unfold constructorLines
  split
  · exact List.forall_mem_nil _
  · rw [List.cons_append, List.cons_append, List.forall_mem_cons, List.forall_mem_cons,
      List.forall_mem_append]
    exact ⟨by decide, by decide, hassignments, by decide⟩

theorem newline_notMem_memberLines : ∀ l ∈ c.memberLines, '\n' ∉ l.toList := by
  unfold memberLines
  rw [List.forall_mem_append, List.forall_mem_append, List.forall_mem_append]
  refine ⟨⟨⟨?_, ?_⟩, ?_⟩, ?_⟩
  · apply newline_notMem_indent
    rw [List.forall_mem_flatMap]
    exact fun p hp => (h.constant hp).newline_notMem_constantLines
  · apply newline_notMem_indent
    rw [List.forall_mem_flatMap]
    exact fun p hp => (h.member hp).newline_notMem_declarationLines
  · exact newline_notMem_indent h.newline_notMem_constructorLines
  · apply newline_notMem_indent
    rw [List.forall_mem_flatMap]
    intro p hp
    rw [List.forall_mem_append]
    exact ⟨(h.member hp).newline_notMem_getterLines, (h.member hp).newline_notMem_setterLines⟩

/-- No line of a readable class has a line break. -/
theorem newline_notMem_lines : ∀ l ∈ c.lines, '\n' ∉ l.toList := by
  have hns : '\n' ∉ ("namespace " ++ c.ns ++ ";").toList := by
    simp [String.toList_append, h.ns]
  have hmembers : ∀ l ∈ dropLastBlank (c.memberLines ++ c.bodyLines), '\n' ∉ l.toList := by
    rw [bodyLines_eq_nil h.body, List.append_nil]
    exact fun l hl => h.newline_notMem_memberLines l (mem_of_mem_dropLastBlank hl)
  have hnil : ∀ l ∈ ([] : List String), '\n' ∉ l.toList := List.forall_mem_nil _
  unfold lines
  simp only [List.forall_mem_append, List.forall_mem_cons]
  exact ⟨⟨⟨⟨⟨⟨⟨by decide, by decide, hns, by decide, hnil⟩, h.newline_notMem_importLines⟩,
    by decide, hnil⟩, h.newline_notMem_docLines⟩, h.newline_notMem_openingLine, by decide, hnil⟩,
    hmembers⟩, by decide, by decide, hnil⟩

/-- The lines of the text are the lines of the class. -/
theorem textLines_text : textLines c.text = c.lines := by
  unfold textLines
  rw [splitOn_text c h.newline_notMem_lines, List.map_map]
  exact List.map_id'' (fun l => String.ofList_toList) c.lines

/-- A readable class opens with an identifier or with the word `class`. -/
theorem isShallow_openingLine : IsShallow c.openingLine := by
  apply Class.isShallow_openingLine
  intro m hm
  have hidentifier := h.modifiers m hm
  refine ⟨(isIdentifier_iff.1 hidentifier).1, ?_⟩
  intro hhead
  exact notMem_of_isIdentifier hidentifier (by decide) (List.mem_of_mem_head? hhead)

end IsReadable
end Class
end OrmGen.Php
