/-
  The members of a class, read back from the lines of its text. A property is declared by a
  line `protected $X;`, a constant by a line `const X = ...;`, a getter and a setter by lines
  that go on with the word for the kind and the suffix up to a parenthesis.

  No other line of a text looks like one of these: imports, annotations, types, literals and the
  header of the class imitate no declaration, as they stand at the margin or behind another
  character than a letter. So each reader finds the names of its members in their order, and
  the constructor is declared once if a member has a default and not at all if none has
  (`members_read_back`).
-/
import OrmGen.Proofs.Php.LineBreaks

namespace OrmGen.Php

/-! ## Readers -/

/-- A text without the semicolon at its end. -/
def statement? (s : String) : Option String :=
  if s.toList.getLast? = some ';' then some (String.ofList s.toList.dropLast) else none

/-- The left side of an equation. -/
def leftSide? (s : String) : Option String :=
  (Text.splitOnce? " = ".toList s.toList).map fun sides => String.ofList sides.1

/-- The name of a getter or a setter, which ends at a parenthesis. -/
def accessorName? (s : String) : Option String :=
  if "get".toList <+: s.toList ∨ "set".toList <+: s.toList then
    some (String.ofList (s.toList.takeWhile (· ≠ '(')))
  else none

/-- The `X` of a line `protected $X;`. -/
def propertyOn? (line : String) : Option String :=
  (declaration? (indentation ++ propertyKeyword) line).bind statement?

/-- The `X` of a line `const X = ...;`. -/
def constantOn? (line : String) : Option String :=
  (declaration? (indentation ++ constantKeyword) line).bind fun rest =>
    (statement? rest).bind leftSide?

/-- The name on a line that declares a getter or a setter. -/
def accessorOn? (line : String) : Option String :=
  (declaration? (indentation ++ functionKeyword) line).bind accessorName?

/-- The line that declares a constructor without parameters. -/
def constructorLine : String := indentation ++ functionKeyword ++ "__construct()"

variable {c : Class} {s t keyword : String} {ls : List String}

theorem statement?_append : statement? (s ++ ";") = some s := by
  unfold statement?
  rw [String.toList_append]
  show (if (s.toList ++ [';']).getLast? = some ';' then
    some (String.ofList (s.toList ++ [';']).dropLast) else none) = some s
  rw [List.getLast?_concat, if_pos rfl, List.dropLast_concat, String.ofList_toList]

theorem leftSide?_append (h : ' ' ∉ s.toList) : leftSide? (s ++ " = " ++ t) = some s := by
  unfold leftSide?
  rw [String.toList_append, String.toList_append]
  show (Text.splitOnce? [' ', '=', ' '] (s.toList ++ [' ', '=', ' '] ++ t.toList)).map _ = _
  rw [Text.splitOnce?_append h, Option.map_some, String.ofList_toList]

/-- An accessor is named by what stands before the parenthesis. -/
theorem accessorName?_append (h : '(' ∉ s.toList)
    (hkind : "get".toList <+: s.toList ∨ "set".toList <+: s.toList) :
    accessorName? (s ++ ("(" ++ t)) = some s := by
  have hall : ∀ ch ∈ s.toList, decide (ch ≠ '(') = true :=
    fun ch hch => decide_eq_true fun heq => h (heq ▸ hch)
  have hprefix : s.toList <+: (s ++ ("(" ++ t)).toList := by
    rw [String.toList_append]
    exact List.prefix_append _ _
  unfold accessorName?
  rw [if_pos (hkind.imp (·.trans hprefix) (·.trans hprefix))]
  rw [String.toList_append, String.toList_append, List.takeWhile_append_of_pos hall]
  show some (String.ofList (s.toList ++ ('(' :: t.toList).takeWhile _)) = some s
  rw [List.takeWhile_cons_of_neg (by decide), List.append_nil, String.ofList_toList]

/-- A line is repeated as often as what it says after the keyword. -/
theorem count_declarations (keyword s : String) (ls : List String) :
    (ls.filterMap (declaration? keyword)).count s = ls.count (keyword ++ s) := by
  induction ls with
  | nil => rfl
  | cons l ls ih =>
    by_cases hl : l = keyword ++ s
    · subst hl
      rw [List.filterMap_cons, declaration?_append, List.count_cons_self, List.count_cons_self, ih]
    · rw [List.count_cons_of_ne hl, ← ih, List.filterMap_cons]
      cases hd : declaration? keyword l with
      | none => rfl
      | some rest =>
        have hrest : rest ≠ s := fun heq => hl (heq ▸ declaration?_eq_some_iff.1 hd)
        rw [List.count_cons_of_ne hrest]

namespace Class.IsReadable

variable (h : c.IsReadable)
include h

/-- What the lines of the text say after a keyword are the declarations of the members. -/
theorem filterMap_textLines {α : Type} {f g : String → Option α} (hreads : Reads f g) :
    (textLines c.text).filterMap f = c.memberHeads.filterMap g := by
  rw [h.textLines_text, hreads.filterMap_lines_of_body h.isShallow_openingLine h.body]

theorem properties_read_back : (textLines c.text).filterMap propertyOn? =
    c.members.map Property.name := by
  unfold propertyOn?
  rw [← List.filterMap_filterMap, h.filterMap_textLines reads_propertyKeyword,
    c.filterMap_memberHeads.2.2, List.filterMap_map]
  simp [statement?_append]

theorem constants_read_back : (textLines c.text).filterMap constantOn? =
    c.constants.map fun p => constantName p.name := by
  have hread : ∀ p ∈ c.constants,
      (statement? p.constantDeclaration).bind leftSide? = some (constantName p.name) := by
    intro p hp
    have hname : ' ' ∉ (constantName p.name).toList :=
      notMem_of_isName (isName_constantName (isName_of_isIdentifier (h.constant hp).name))
        (by decide)
    unfold Property.constantDeclaration
    rw [statement?_append, Option.bind_some, leftSide?_append hname]
  unfold constantOn?
  rw [← List.filterMap_filterMap, h.filterMap_textLines reads_constantKeyword,
    c.filterMap_memberHeads.1, List.filterMap_map, ← List.filterMap_eq_map]
  apply List.filterMap_congr
  intro p hp
  rw [Function.comp_apply, Function.comp_apply, hread p hp]

theorem accessors_read_back : (textLines c.text).filterMap accessorOn? =
    c.members.flatMap fun p =>
      ["get" ++ accessorSuffix p.name, "set" ++ accessorSuffix p.name] := by
  have hconstructor : (c.constructorName.map (· ++ "()")).filterMap accessorName? = [] := by
    unfold constructorName
    split
    · rfl
    · decide
  have hread : ∀ p ∈ c.members, (["get" ++ accessorSuffix p.name ++ ("(" ++ p.getterRest),
      "set" ++ accessorSuffix p.name ++ ("(" ++ p.setterRest)]).filterMap accessorName? =
        ["get" ++ accessorSuffix p.name, "set" ++ accessorSuffix p.name] := by
    intro p hp
    have hsuffix : '(' ∉ (accessorSuffix p.name).toList :=
      notMem_of_isName (isName_accessorSuffix (isName_of_isIdentifier (h.member hp).name))
        (by decide)
    have hget : accessorName? ("get" ++ accessorSuffix p.name ++ ("(" ++ p.getterRest)) =
        some ("get" ++ accessorSuffix p.name) :=
      accessorName?_append (by simp [String.toList_append, hsuffix])
        (.inl (by simp [String.toList_append]))
    have hset : accessorName? ("set" ++ accessorSuffix p.name ++ ("(" ++ p.setterRest)) =
        some ("set" ++ accessorSuffix p.name) :=
      accessorName?_append (by simp [String.toList_append, hsuffix])
        (.inr (by simp [String.toList_append]))
    rw [List.filterMap_cons_some hget, List.filterMap_cons_some hset, List.filterMap_nil]
  unfold accessorOn?
  rw [← List.filterMap_filterMap, h.filterMap_textLines reads_functionKeyword,
    c.filterMap_memberHeads.2.1, List.filterMap_append, hconstructor, List.nil_append,
    List.filterMap_flatMap]
  exact List.flatMap_congr hread

theorem constructor_read_back : (textLines c.text).count constructorLine =
    if c.members.any (·.default.isSome) then 1 else 0 := by
  have hnone : (c.members.filterMap Property.assignment? = []) ↔
      ¬ c.members.any (·.default.isSome) = true := by
    simp [Property.assignment?]
  have haccessors : (c.members.flatMap fun p =>
      ["get" ++ accessorSuffix p.name ++ ("(" ++ p.getterRest),
        "set" ++ accessorSuffix p.name ++ ("(" ++ p.setterRest)]).count "__construct()" = 0 := by
    rw [List.count_eq_zero, List.mem_flatMap]
    rintro ⟨p, _, hp⟩
    simp [String.toList_append, ← String.toList_inj] at hp
  unfold constructorLine
  rw [← count_declarations, h.filterMap_textLines reads_functionKeyword,
    c.filterMap_memberHeads.2.1, List.count_append, haccessors]
  unfold constructorName
  by_cases hany : c.members.any (·.default.isSome) = true
  · rw [if_pos hany, if_neg (fun hnil => hnone.1 hnil hany)]
    decide
  · rw [if_neg hany, if_pos (hnone.2 hany)]
    rfl

end Class.IsReadable

/-- The text of a class without a body that is named by identifiers, and whose other texts have
no line breaks, can be read back: the lines that declare properties list the members, those that
declare accessors list a getter and a setter of each member, those that declare constants list the
constants in upper case, all in order, and the constructor is declared once if some member has
a default and never otherwise. -/
theorem members_read_back (h : c.IsReadable) :
    (textLines c.text).filterMap propertyOn? = c.members.map Property.name ∧
      (textLines c.text).filterMap accessorOn? = c.members.flatMap (fun p =>
        ["get" ++ accessorSuffix p.name, "set" ++ accessorSuffix p.name]) ∧
      (textLines c.text).filterMap constantOn? = c.constants.map (fun p => constantName p.name) ∧
      (textLines c.text).count constructorLine =
        if c.members.any (·.default.isSome) then 1 else 0 :=
  ⟨h.properties_read_back, h.accessors_read_back, h.constants_read_back, h.constructor_read_back⟩

/-- A class whose annotations, types and imports look like declarations. -/
def imitator : Class where
  name := "User"
  ns := "App"
  imports := ImportTable.empty.bind ⟨"App\\Base    protected $base;", "Base"⟩
  annotations := ["    protected $annotated;", "    const A = 1;"]
  properties := .ofList [
    ("id", .member "id" "int;    public function getFake()" none ["    protected $fake;"]),
    ("score", .member "score" "int|null" (some "1;    const B = 2;") []),
    ("max", .constant "max" "    const C = 3;" (some "3"))]
  modifiers := ["abstract"]
  parent := some "Base\n    const D = 4;"
  body := none
  banner := true

/-- Its own members are read, and nothing else. -/
theorem imitator_read_back : imitator.IsReadable ∧
    (textLines imitator.text).filterMap propertyOn? = ["id", "score"] ∧
      (textLines imitator.text).filterMap accessorOn? =
        ["getId", "setId", "getScore", "setScore"] ∧
      (textLines imitator.text).filterMap constantOn? = ["MAX"] ∧
      (textLines imitator.text).count constructorLine = 1 := by
  have hreadable : imitator.IsReadable := {
    name := by decide
    modifiers := by decide
    body := rfl
    ns := by decide
    imports := by decide
    annotations := by decide
    properties := by
      have hvalues : imitator.properties.values = [
          .member "id" "int;    public function getFake()" none ["    protected $fake;"],
          .member "score" "int|null" (some "1;    const B = 2;") [],
          .constant "max" "    const C = 3;" (some "3")] := by decide
      rw [hvalues, List.forall_mem_cons, List.forall_mem_cons, List.forall_mem_singleton]
      refine ⟨⟨?_, ?_, ?_, ?_⟩, ⟨?_, ?_, ?_, ?_⟩, ⟨?_, ?_, ?_, ?_⟩⟩ <;> decide }
  obtain ⟨hproperties, haccessors, hconstants, hconstructor⟩ := members_read_back hreadable
  refine ⟨hreadable, hproperties.trans ?_, haccessors.trans ?_, hconstants.trans ?_,
    hconstructor.trans ?_⟩ <;> decide +kernel

end OrmGen.Php
