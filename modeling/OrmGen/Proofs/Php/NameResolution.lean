/-
  Names as the text of a class resolves them. The use lines of the text, read back, declare
  names (`Class.uses`); a name that none of them declares is one of the class's own namespace
  (`Class.resolve`), and what stands after the name of the class is its parent
  (`Class.readParent`).

  What is written can lose in two ways. The characters of imports and of parents are filtered,
  and the filters keep no underscores, so the use lines declare the imports of other
  namespaces with the underscores left out (`Class.uses_eq`). And no import of the class's
  own namespace is written, although one under another name than its symbol's is not found
  without (`ownPath_eq_iff`). An import resolves to its path exactly where neither gets in the
  way (`Class.import_resolves_iff`).
-/
import OrmGen.Php.ClassText
import OrmGen.Proofs.Php.ImportTable
import OrmGen.Proofs.Text.Pieces

namespace OrmGen.Php

/-- Whether a text can be a name: ASCII letters, digits and underscores, at least one. -/
def isIdentifier (s : String) : Bool := s ≠ "" && Text.isWord s

/-- Whether a text is a path of names, with a backslash between one and the next. -/
def isNamePath (s : String) : Bool :=
  (s.toList.splitOn '\\').all fun name => isIdentifier (String.ofList name)

/-- A text without its underscores. -/
def bare (s : String) : String := keep (· ≠ '_') s

/-- An import as it can stand in a program. -/
structure Import.IsReadable (i : Import) : Prop where
  path : isNamePath i.path = true
  name : isIdentifier i.name = true

/-! ## Reading -/

/-- The import that a use line declares: a path, and the name after `as` or the path's last
one. A backslash in front of the path says nothing. -/
def Import.ofUseLine (line : List Char) : Import :=
  let body := ((line.drop "use ".length).dropLast).dropWhile (· = '\\')
  match Text.splitOnce? " as ".toList body with
  | some (path, name) => ⟨String.ofList path, String.ofList name⟩
  | none => ⟨String.ofList body, String.ofList (Text.afterLast '\\' body)⟩

/-- The path of a name that no use line declares. -/
def ownPath (ns name : String) : String := if ns = "" then name else ns ++ "\\" ++ name

namespace Class

/-- The text of a class up to its use lines. -/
def header (c : Class) : String := "<?php\n\nnamespace " ++ c.ns ++ ";\n\n"

/-- The imports that the use lines of a class's text declare. They end at an empty line. -/
def uses (c : Class) : List Import :=
  (((c.text.toList.drop c.header.toList.length).splitOn '\n').takeWhile (· ≠ [])).map
    Import.ofUseLine

/-- The path that a name stands for in the text of a class. -/
def resolve (c : Class) (name : String) : String :=
  match c.uses.find? (·.name = name) with
  | some i => i.path
  | none => ownPath c.ns name

/-- The lines of a class up to its name. -/
def upToName (c : Class) : List String :=
  ["<?php", "", "namespace " ++ c.ns ++ ";", ""] ++ c.importLines ++ [""] ++ c.docLines
    ++ [openingLine { c with parent := none }]

/-- What stands after the name of a class on its line. -/
def afterName (c : Class) : List Char :=
  (c.text.toList.drop ("\n".intercalate c.upToName).toList.length).takeWhile (· ≠ '\n')

/-- The name of the parent in a class's text: what stands after `extends`. -/
def readParent (c : Class) : Option String :=
  (" extends ".toList.isPrefixOf? c.afterName).map String.ofList

/-- The imports that are written. -/
def foreignImports (c : Class) : List Import :=
  c.imports.imports.filter fun i => i.namespacePart ≠ c.ns

/-- The first import whose use line declares a name. -/
def declaring? (c : Class) (name : String) : Option Import :=
  c.foreignImports.find? fun i => bare i.name = name

end Class

/-- The import as its use line declares it. -/
def Import.written (i : Import) : Import :=
  ⟨String.ofList ((bare i.path).toList.dropWhile (· = '\\')), bare i.name⟩

variable {s : String} {c : Class} {i : Import} {ch : Char} {ns name path : String}

/-! ## Characters -/

theorem isIdentifier_iff : isIdentifier s = true ↔ s ≠ "" ∧ Text.isWord s = true := by
  simp [isIdentifier]

theorem isNamePath_iff : isNamePath s = true ↔
    ∀ name ∈ s.toList.splitOn '\\', isIdentifier (String.ofList name) = true := by
  unfold isNamePath
  rw [List.all_eq_true]

/-- A path has backslashes and the characters of words. -/
theorem isWordChar_of_isNamePath (h : isNamePath s = true) (hch : ch ∈ s.toList) :
    ch = '\\' ∨ (ch.isAlphanum || ch = '_') = true := by
  by_cases hbackslash : ch = '\\'
  · exact .inl hbackslash
  · obtain ⟨name, hname, hmem⟩ := Text.exists_mem_splitOn hch hbackslash
    have hword := (isIdentifier_iff.1 (isNamePath_iff.1 h name hname)).2
    unfold Text.isWord at hword
    rw [String.toList_ofList] at hword
    exact .inr (List.all_eq_true.1 hword ch hmem)

theorem notMem_of_isNamePath (h : isNamePath s = true) (hbackslash : ch ≠ '\\')
    (hch : (ch.isAlphanum || ch = '_') = false) : ch ∉ s.toList := by
  intro hmem
  rcases isWordChar_of_isNamePath h hmem with rfl | hword
  · exact hbackslash rfl
  · rw [hch] at hword
    cases hword

/-- A path starts with a name, and so with no backslash. -/
theorem head?_ne_of_isNamePath (h : isNamePath s = true) : s.toList.head? ≠ some '\\' := by
  intro hhead
  obtain ⟨rest, hrest⟩ := List.head?_eq_some_iff.1 hhead
  have hcut : ('\\' :: rest).splitOn '\\' = [] :: rest.splitOn '\\' :=
    List.splitOn_append_cons_self_of_not_mem List.not_mem_nil rest
  have hfirst : [] ∈ s.toList.splitOn '\\' := by
    rw [hrest, hcut]
    exact List.mem_cons_self
  have hidentifier := isNamePath_iff.1 h [] hfirst
  exact absurd hidentifier (by decide)

theorem ne_empty_of_isNamePath (h : isNamePath s = true) : s ≠ "" := by
  rintro rfl
  exact absurd h (by decide)

theorem notMem_of_isIdentifier (h : isIdentifier s = true)
    (hch : (ch.isAlphanum || ch = '_') = false) : ch ∉ s.toList :=
  Text.notMem_of_isWord (isIdentifier_iff.1 h).2 hch

/-- A filter that keeps the characters of paths other than underscores. -/
structure KeepsNames (p : Char → Bool) : Prop where
  letter : ∀ ch, ch.isAlphanum = true → p ch = true
  backslash : p '\\' = true
  underscore : p '_' = false

theorem keepsNames_isImportChar : KeepsNames isImportChar where
  letter ch h := by simp [isImportChar, isLetterOrDigit, h]
  backslash := by decide
  underscore := by decide

theorem keepsNames_isParentChar : KeepsNames isParentChar where
  letter ch h := by simp [isParentChar, isLetterOrDigit, h]
  backslash := by decide
  underscore := by decide

namespace KeepsNames

variable {p : Char → Bool}

theorem keep_eq_bare (h : KeepsNames p)
    (hs : ∀ ch ∈ s.toList, ch = '\\' ∨ (ch.isAlphanum || ch = '_') = true) :
    keep p s = bare s := by
  have hchar : ∀ ch ∈ s.toList, p ch = decide (ch ≠ '_') := by
    intro ch hch
    by_cases hunderscore : ch = '_'
    · rw [hunderscore, h.underscore]
      rfl
    · have hkept : p ch = true := by
        rcases hs ch hch with rfl | hword
        · exact h.backslash
        · exact h.letter ch (by simpa [hunderscore] using hword)
      simp [hkept, hunderscore]
  unfold bare keep
  rw [List.filter_congr hchar]

theorem keep_path (h : KeepsNames p) (hs : isNamePath s = true) : keep p s = bare s :=
  h.keep_eq_bare fun _ hch => isWordChar_of_isNamePath hs hch

theorem keep_name (h : KeepsNames p) (hs : isIdentifier s = true) : keep p s = bare s :=
  h.keep_eq_bare fun ch hch => .inr (List.all_eq_true.1 (isIdentifier_iff.1 hs).2 ch hch)

end KeepsNames

theorem keep_append (p : Char → Bool) (s t : String) : keep p (s ++ t) = keep p s ++ keep p t := by
  unfold keep
  rw [String.toList_append, List.filter_append, String.ofList_append]

theorem toList_bare (s : String) : (bare s).toList = s.toList.filter (· ≠ '_') := by
  unfold bare keep
  rw [String.toList_ofList]

theorem notMem_bare (h : ch ∉ s.toList) : ch ∉ (bare s).toList := by
  rw [toList_bare]
  exact fun hmem => h (List.mem_of_mem_filter hmem)

theorem bare_eq_self_iff : bare s = s ↔ '_' ∉ s.toList := by
  rw [← String.toList_inj, toList_bare, List.filter_eq_self]
  constructor
  · intro h hmem
    exact absurd (h _ hmem) (by decide)
  · intro h ch hch
    have hne : ch ≠ '_' := fun e => h (e ▸ hch)
    simpa using hne

/-! ## Use lines -/

namespace Import

/-- What is written for an import whose names are words. -/
theorem keep_statement (h : i.IsReadable) : keep isImportChar i.statement =
    if i.symbol = i.name then bare i.path else bare i.path ++ " as " ++ bare i.name := by
  have hpath : keep isImportChar i.path = bare i.path := keepsNames_isImportChar.keep_path h.path
  have hname : keep isImportChar i.name = bare i.name := keepsNames_isImportChar.keep_name h.name
  unfold statement
  split
  · exact hpath
  · rw [keep_append, keep_append, hpath, hname]
    congr 1

theorem useLine_body (body : String) :
    ((("use " ++ body ++ ";").toList).drop "use ".length).dropLast = body.toList := by
  rw [String.toList_append, String.toList_append, List.append_assoc]
  have hlength : "use ".length = "use ".toList.length := rfl
  rw [hlength, List.drop_left]
  exact List.dropLast_concat

theorem blank_notMem_path (h : i.IsReadable) :
    ' ' ∉ (bare i.path).toList.dropWhile (· = '\\') := by
  intro hmem
  have hbare : ' ' ∈ (bare i.path).toList := (List.dropWhile_suffix _).subset hmem
  exact notMem_bare (notMem_of_isNamePath h.path (by decide) (by decide)) hbare

/-- A use line declares its import without the underscores. -/
theorem ofUseLine_eq (h : i.IsReadable) :
    ofUseLine ("use " ++ keep isImportChar i.statement ++ ";").toList = i.written := by
  have hblank := blank_notMem_path h
  unfold ofUseLine written
  rw [useLine_body, keep_statement h]
  by_cases hsymbol : i.symbol = i.name
  · rw [if_pos hsymbol]
    have hnone : Text.splitOnce? " as ".toList ((bare i.path).toList.dropWhile (· = '\\')) = none :=
      Text.splitOnce?_eq_none hblank
    have hname : Text.afterLast '\\' ((bare i.path).toList.dropWhile (· = '\\')) =
        (bare i.name).toList := by
      rw [Text.afterLast_dropWhile, toList_bare, Text.afterLast_filter (by decide), toList_bare,
        ← hsymbol]
      unfold symbol
      rw [String.toList_ofList]
    simp only [hnone, hname, String.ofList_toList]
  · rw [if_neg hsymbol]
    have hbody : (bare i.path ++ " as " ++ bare i.name).toList.dropWhile (· = '\\') =
        (bare i.path).toList.dropWhile (· = '\\') ++ " as ".toList ++ (bare i.name).toList := by
      rw [String.toList_append, String.toList_append, List.append_assoc, List.append_assoc]
      exact Text.dropWhile_append_cons (by decide) _ _
    have hsome : Text.splitOnce? " as ".toList
        ((bare i.path).toList.dropWhile (· = '\\') ++ " as ".toList ++ (bare i.name).toList) =
          some ((bare i.path).toList.dropWhile (· = '\\'), (bare i.name).toList) :=
      Text.splitOnce?_append hblank
    simp only [hbody, hsome, String.ofList_toList]

theorem importLine_isLine (h : i.IsReadable) :
    ("use " ++ keep isImportChar i.statement ++ ";").toList ≠ [] ∧
      '\n' ∉ ("use " ++ keep isImportChar i.statement ++ ";").toList := by
  have hpath : '\n' ∉ (bare i.path).toList :=
    notMem_bare (notMem_of_isNamePath h.path (by decide) (by decide))
  have hname : '\n' ∉ (bare i.name).toList :=
    notMem_bare (notMem_of_isIdentifier h.name (by decide))
  rw [keep_statement h]
  constructor
  · simp [String.toList_append]
  · split <;> simp [String.toList_append, hpath, hname]

end Import

namespace Class

/-- The lines after the use lines and the empty line that ends them. -/
def codeLines (c : Class) : List String :=
  c.docLines ++ [c.openingLine, "\x7b"] ++ dropLastBlank (c.memberLines ++ c.bodyLines)
    ++ ["\x7d", ""]

theorem lines_eq (c : Class) : c.lines = ["<?php", "", "namespace " ++ c.ns ++ ";", ""] ++
    (c.importLines ++ "" :: c.codeLines) := by
  simp [lines, codeLines]

theorem text_eq (c : Class) :
    c.text = c.header ++ "\n".intercalate (c.importLines ++ "" :: c.codeLines) := by
  have hheader : "\n".intercalate ["<?php", "", "namespace " ++ c.ns ++ ";", ""] ++ "\n" =
      c.header := by
    unfold header
    rw [← String.toList_inj]
    simp [String.toList_append]
  rw [text, lines_eq, String.intercalate_append_of_ne_nil (by simp) (by simp), hheader]

/-- The use lines of a class's text declare the imports of other namespaces, in order and
without the underscores. -/
theorem uses_eq (h : ∀ i ∈ c.imports.imports, i.IsReadable) :
    c.uses = c.foreignImports.map Import.written := by
  have hforeign : ∀ i ∈ c.foreignImports, i.IsReadable :=
    fun i hi => h i (List.mem_filter.1 hi).1
  have hlines : c.importLines = c.foreignImports.map fun i =>
      "use " ++ keep isImportChar i.statement ++ ";" := by
    unfold importLines importStatements foreignImports
    rw [List.map_map]
    rfl
  have hisLine : ∀ l ∈ c.importLines.map String.toList, l ≠ [] ∧ '\n' ∉ l := by
    intro l hl
    rw [hlines, List.map_map] at hl
    obtain ⟨i, hi, rfl⟩ := List.mem_map.1 hl
    exact Import.importLine_isLine (hforeign i hi)
  have htext : c.text.toList.drop c.header.toList.length = ['\n'].intercalate
      (c.importLines.map String.toList ++ [] :: c.codeLines.map String.toList) := by
    have hnewline : "\n".toList = ['\n'] := rfl
    have hempty : "".toList = [] := rfl
    rw [text_eq, String.toList_append, List.drop_left, String.toList_intercalate, List.map_append,
      List.map_cons, hnewline, hempty]
  have hread : c.uses = (c.importLines.map String.toList).map Import.ofUseLine := by
    unfold uses
    rw [htext]
    exact congrArg (List.map Import.ofUseLine) (Text.takeWhile_splitOn_intercalate hisLine)
  rw [hread, hlines, List.map_map, List.map_map]
  apply List.map_congr_left
  intro i hi
  rw [Function.comp_apply, Function.comp_apply, Import.ofUseLine_eq (hforeign i hi)]

/-! ## Resolution -/

theorem path_eq_of_mem (h : '\\' ∈ i.path.toList) :
    i.path = i.namespacePart ++ "\\" ++ i.symbol := by
  have hsplit := Text.beforeLast_append_afterLast h
  unfold Import.namespacePart Import.symbol
  simp only [← String.toList_inj, String.toList_append, String.toList_ofList, List.append_assoc]
  exact hsplit.symm

theorem parts_of_path_eq (hname : '\\' ∉ name.toList) (h : i.path = ns ++ "\\" ++ name) :
    i.namespacePart = ns ∧ i.symbol = name := by
  have hlist : i.path.toList = ns.toList ++ '\\' :: name.toList := by
    rw [h, String.toList_append, String.toList_append, List.append_assoc]
    rfl
  unfold Import.namespacePart Import.symbol
  rw [hlist, Text.beforeLast_append_cons hname, Text.afterLast_append_cons hname]
  exact ⟨String.ofList_toList, String.ofList_toList⟩

theorem namespacePart_ne_empty (h : i.IsReadable) (hmem : '\\' ∈ i.path.toList) :
    i.namespacePart ≠ "" := by
  intro hempty
  apply head?_ne_of_isNamePath h.path
  rw [path_eq_of_mem hmem, hempty, String.toList_append, String.toList_append]
  rfl

/-- A name of a class's own namespace stands for the path of an import exactly if the import
is of that namespace and has the name of its symbol. -/
theorem ownPath_eq_iff (h : i.IsReadable) :
    ownPath ns i.name = i.path ↔ i.namespacePart = ns ∧ i.symbol = i.name := by
  have hname : '\\' ∉ i.name.toList := notMem_of_isIdentifier h.name (by decide)
  unfold ownPath
  by_cases hmem : '\\' ∈ i.path.toList
  · have hne := namespacePart_ne_empty h hmem
    by_cases hns : ns = ""
    · rw [if_pos hns, hns]
      constructor
      · intro heq
        exact absurd (heq ▸ hmem) hname
      · exact fun hparts => absurd hparts.1 hne
    · rw [if_neg hns]
      constructor
      · exact fun heq => parts_of_path_eq hname heq.symm
      · rintro ⟨hpart, hsymbol⟩
        rw [path_eq_of_mem hmem, hpart, hsymbol]
  · have hpart : i.namespacePart = "" := by
      unfold Import.namespacePart
      rw [Text.beforeLast_eq_nil hmem, String.ofList_nil]
    have hsymbol : i.symbol = i.path := by
      unfold Import.symbol
      rw [Text.afterLast_eq_self hmem, String.ofList_toList]
    rw [hpart, hsymbol]
    by_cases hns : ns = ""
    · rw [if_pos hns, hns]
      simp [eq_comm]
    · rw [if_neg hns]
      constructor
      · intro heq
        rw [← heq] at hmem
        simp [String.toList_append] at hmem
      · exact fun hparts => absurd hparts.1.symm hns

/-- What a name stands for in the text of a class. -/
theorem resolve_eq (h : ∀ i ∈ c.imports.imports, i.IsReadable) (name : String) :
    c.resolve name = match c.declaring? name with
      | some i => i.written.path
      | none => ownPath c.ns name := by
  unfold resolve declaring?
  rw [uses_eq h, List.find?_map]
  have hname : ((fun i : Import => decide (i.name = name)) ∘ Import.written) =
      fun i => decide (bare i.name = name) := rfl
  rw [hname]
  cases c.foreignImports.find? fun i => bare i.name = name <;> rfl

/-! ## Parents -/

theorem openingLine_eq (c : Class) :
    c.openingLine = openingLine { c with parent := none } ++ c.parentClause := by
  have hnone : parentClause { c with parent := none } = "" := rfl
  unfold openingLine
  rw [hnone, String.append_empty]

theorem text_eq_upToName (c : Class) : ∃ rest,
    c.text = "\n".intercalate c.upToName ++ (c.parentClause ++ "\n" ++ rest) := by
  obtain ⟨rest, hrest⟩ : ∃ rest, c.codeLines = c.docLines ++ c.openingLine :: "\x7b" :: rest :=
    ⟨dropLastBlank (c.memberLines ++ c.bodyLines) ++ ["\x7d", ""], by simp [codeLines]⟩
  refine ⟨"\n".intercalate ("\x7b" :: rest), ?_⟩
  generalize hbefore : ["<?php", "", "namespace " ++ c.ns ++ ";", ""] ++ c.importLines ++ [""]
    ++ c.docLines = before
  have hne : before ≠ [] := by
    rw [← hbefore]
    simp
  have hlines : c.lines = before ++ c.openingLine :: "\x7b" :: rest := by
    rw [lines_eq, hrest, ← hbefore]
    simp
  have hupTo : c.upToName = before ++ [openingLine { c with parent := none }] := by
    rw [← hbefore]
    rfl
  rw [text, hlines, hupTo, String.intercalate_append_of_ne_nil hne (by simp),
    String.intercalate_append_of_ne_nil hne (by simp), String.intercalate_cons_of_ne_nil (by simp),
    String.intercalate_singleton, openingLine_eq]
  simp only [String.append_assoc]

/-- The clause that is written for a parent whose names are words. -/
theorem parentClause_eq (h : ∀ p ∈ c.parent, isNamePath p = true) :
    c.parentClause = if bare (c.parent.getD "") = "" then "" else
      " extends " ++ bare (c.parent.getD "") := by
  have hkeep : keep isParentChar (c.parent.getD "") = bare (c.parent.getD "") := by
    cases hparent : c.parent with
    | none => rfl
    | some p => exact keepsNames_isParentChar.keep_path (h p hparent)
  unfold parentClause
  rw [hkeep]

/-- The name of a parent is filtered, so its line goes on to the end. -/
theorem newline_notMem_parentClause (c : Class) : '\n' ∉ c.parentClause.toList := by
  have hkept : '\n' ∉ (keep isParentChar (c.parent.getD "")).toList := by
    unfold keep
    rw [String.toList_ofList, List.mem_filter]
    exact fun h => absurd h.2 (by decide)
  unfold parentClause
  dsimp only
  split
  · decide
  · simp [String.toList_append, hkept]

theorem afterName_eq (c : Class) : c.afterName = c.parentClause.toList := by
  obtain ⟨rest, hrest⟩ := text_eq_upToName c
  have hall : ∀ ch ∈ c.parentClause.toList, decide (ch ≠ '\n') = true := by
    intro ch hch
    have hne : ch ≠ '\n' := fun e => newline_notMem_parentClause c (e ▸ hch)
    simpa using hne
  have hnewline : "\n".toList = ['\n'] := rfl
  unfold afterName
  rw [hrest, String.toList_append, List.drop_left, String.toList_append, String.toList_append,
    List.append_assoc, List.takeWhile_append_of_pos hall, hnewline, List.singleton_append,
    List.takeWhile_cons_of_neg (by simp), List.append_nil]

/-- The parent in a class's text is its parent without the underscores. -/
theorem readParent_eq (h : ∀ p ∈ c.parent, isNamePath p = true) :
    c.readParent = (c.parent.map bare).filter (· ≠ "") := by
  unfold readParent
  rw [afterName_eq c, parentClause_eq h]
  cases c.parent with
  | none => rfl
  | some p =>
    rw [Option.getD_some, Option.map_some]
    by_cases hbare : bare p = ""
    · rw [if_pos hbare, hbare]
      rfl
    · rw [if_neg hbare, String.toList_append, Text.isPrefixOf?_append]
      simp [hbare, Option.filter]

theorem readParent_eq_iff (h : ∀ p ∈ c.parent, isNamePath p = true) :
    c.readParent = c.parent ↔ ∀ p ∈ c.parent, '_' ∉ p.toList := by
  rw [readParent_eq h]
  cases hparent : c.parent with
  | none => simp
  | some p =>
    have hne := ne_empty_of_isNamePath (h p hparent)
    have hall : (∀ q ∈ some p, '_' ∉ q.toList) ↔ bare p = p := by
      simp [bare_eq_self_iff]
    rw [Option.map_some, hall]
    by_cases hbare : bare p = ""
    · simp [hbare, Option.filter, hne.symm]
    · simp [hbare, Option.filter]

/-! ## What is written and what it means -/

/-- The import is what its name stands for in the text: it is what the first use line that
declares the name declares, or, where none does, of the class's own namespace and under its
symbol's name. -/
def ResolvesFully (c : Class) (i : Import) : Prop :=
  match c.declaring? i.name with
  | some j => j.written.path = i.path
  | none => i.namespacePart = c.ns ∧ i.symbol = i.name

theorem import_resolves_iff (h : ∀ i ∈ c.imports.imports, i.IsReadable)
    (hi : i ∈ c.imports.imports) : c.resolve i.name = i.path ↔ ResolvesFully c i := by
  rw [resolve_eq h]
  unfold ResolvesFully
  cases c.declaring? i.name with
  | some j => rfl
  | none => exact ownPath_eq_iff (h i hi)

/-- An import without underscores is declared as it is. -/
theorem written_eq_self (h : i.IsReadable) (hpath : '_' ∉ i.path.toList)
    (hname : '_' ∉ i.name.toList) : i.written = i := by
  have hdrop : i.path.toList.dropWhile (· = '\\') = i.path.toList := by
    cases hlist : i.path.toList with
    | nil => rfl
    | cons ch rest =>
      have hne : ch ≠ '\\' := by
        rintro rfl
        exact head?_ne_of_isNamePath h.path (by rw [hlist]; rfl)
      exact List.dropWhile_cons_of_neg (by simpa using hne)
  unfold Import.written
  rw [bare_eq_self_iff.2 hpath, bare_eq_self_iff.2 hname, hdrop, String.ofList_toList]

/-- In a table without underscores a name is declared by its own import, if that is written. -/
theorem declaring?_eq (hplain : ∀ i ∈ c.imports.imports, '_' ∉ i.name.toList)
    (hi : i ∈ c.imports.imports) :
    c.declaring? i.name = if i.namespacePart = c.ns then none else some i := by
  have hsame : ∀ j ∈ c.foreignImports, bare j.name = i.name → j = i := by
    intro j hj hname
    have hj := (List.mem_filter.1 hj).1
    rw [bare_eq_self_iff.2 (hplain j hj)] at hname
    exact ImportTable.eq_of_name_eq hj hi hname
  unfold declaring?
  split
  · rename_i hown
    rw [List.find?_eq_none]
    intro j hj hname
    have hji := hsame j hj (by simpa using hname)
    have hforeign := (List.mem_filter.1 hj).2
    rw [hji] at hforeign
    simp [hown] at hforeign
  · rename_i hforeign
    have hmem : i ∈ c.foreignImports := List.mem_filter.2 ⟨hi, by simpa using hforeign⟩
    cases hfind : c.foreignImports.find? fun j => bare j.name = i.name with
    | none =>
      have hnot := List.find?_eq_none.1 hfind i hmem
      exact absurd (bare_eq_self_iff.2 (hplain i hi)) (by simpa using hnot)
    | some j =>
      have hname := List.find?_some hfind
      rw [hsame j (List.mem_of_find?_eq_some hfind) (by simpa using hname)]

/-- In a table without underscores only an import of the class's own namespace can be lost,
and it is unless it has its symbol's name. -/
theorem import_resolves_iff_of_plain (h : ∀ i ∈ c.imports.imports, i.IsReadable)
    (hplain : ∀ i ∈ c.imports.imports, '_' ∉ i.path.toList ∧ '_' ∉ i.name.toList)
    (hi : i ∈ c.imports.imports) :
    c.resolve i.name = i.path ↔ (i.namespacePart = c.ns → i.symbol = i.name) := by
  have hwritten := written_eq_self (h i hi) (hplain i hi).1 (hplain i hi).2
  rw [import_resolves_iff h hi]
  unfold ResolvesFully
  rw [declaring?_eq (fun j hj => (hplain j hj).2) hi]
  by_cases hown : i.namespacePart = c.ns
  · simp [hown]
  · simp [hown, hwritten]

/-- For a class whose imports and parent are names as a program can have them, the text of the
class resolves the name of an import to its path if and only if the first use line that
declares the name, underscores left out, declares that path, or none declares it and the import
is of the class's own namespace and under its symbol's name. Without underscores in the table,
that is so if and only if the import is of another namespace or under its symbol's name. The
parent in the text is the parent of the class if and only if it has no underscore. -/
theorem rendered_names_resolve_iff (himports : ∀ i ∈ c.imports.imports, i.IsReadable)
    (hparent : ∀ p ∈ c.parent, isNamePath p = true) :
    (∀ i ∈ c.imports.imports, c.resolve i.name = i.path ↔ ResolvesFully c i) ∧
      ((∀ i ∈ c.imports.imports, '_' ∉ i.path.toList ∧ '_' ∉ i.name.toList) →
        ∀ i ∈ c.imports.imports,
          c.resolve i.name = i.path ↔ (i.namespacePart = c.ns → i.symbol = i.name)) ∧
      (c.readParent = c.parent ↔ ∀ p ∈ c.parent, '_' ∉ p.toList) := by
  refine ⟨?_, ?_, readParent_eq_iff hparent⟩
  · intro i hi
    exact import_resolves_iff himports hi
  · intro hplain i hi
    exact import_resolves_iff_of_plain himports hplain hi

/-- A class with an import and a parent that have underscores, and with an import of its own
namespace under another name than its symbol's. -/
def snakeClass : Class :=
  { generated "K" "App" with
    imports := ImportTable.empty |>.bind ⟨"Lib\\Some_Thing", "Some_Thing"⟩ |>.bind ⟨"App\\Y", "Z"⟩
    parent := some "Some_Thing" }

/-- Neither import is what its name stands for in the text, and the parent is another class. -/
theorem snake_names_get_lost : snakeClass.resolve "Some_Thing" ≠ "Lib\\Some_Thing" ∧
    snakeClass.resolve "Z" ≠ "App\\Y" ∧ snakeClass.readParent ≠ some "Some_Thing" := by
  have htable : snakeClass.imports.imports =
      [⟨"Lib\\Some_Thing", "Some_Thing"⟩, ⟨"App\\Y", "Z"⟩] := by decide
  have himports : ∀ i ∈ snakeClass.imports.imports, i.IsReadable := by
    intro i hi
    simp only [htable, List.mem_cons, List.not_mem_nil, or_false] at hi
    rcases hi with rfl | rfl <;> exact ⟨by decide, by decide⟩
  have hparent : ∀ p ∈ snakeClass.parent, isNamePath p = true := by
    intro p hp
    cases hp
    decide
  obtain ⟨hresolve, _, hread⟩ := rendered_names_resolve_iff himports hparent
  rw [htable, List.forall_mem_cons, List.forall_mem_cons] at hresolve
  obtain ⟨hsnake, hrenamed, _⟩ := hresolve
  refine ⟨?_, ?_, ?_⟩
  · intro hsome
    have hfully := hsnake.1 hsome
    unfold ResolvesFully at hfully
    have hnone : snakeClass.declaring? "Some_Thing" = none := by decide
    rw [hnone] at hfully
    exact absurd hfully.1 (by decide)
  · intro hz
    have hfully := hrenamed.1 hz
    unfold ResolvesFully at hfully
    have hnone : snakeClass.declaring? "Z" = none := by decide
    rw [hnone] at hfully
    exact absurd hfully.2 (by decide)
  · intro hsame
    exact absurd (hread.1 hsame "Some_Thing" rfl) (by decide)

end Class
end OrmGen.Php
