/-
  What the text of a class declares, read back from its lines. A line declares a constant or
  a function if it starts with the keyword, one level deep; the name is what follows, as far
  as it consists of characters that a name may have.

  In a class without a body of its own the constants are those of the class
  (`Class.constantDeclarations_eq`), and the functions are the constructor and the two
  accessors of each member (`Class.declaredMethods_eq`). No accessor is named like one of the
  other kind or like the constructor, so methods are repeated only where the accessor suffixes
  of two members are the same (`Class.nodup_declaredMethods_iff`).
-/
import OrmGen.Proofs.Php.MemberLines

namespace OrmGen.Php

/-- The characters that a name may have. -/
def isNameChar (c : Char) : Bool := isLetterOrDigit c || c = '_' || 128 ≤ c.toNat

/-- A text as far as it consists of characters of names. -/
def readName (s : String) : String := String.ofList (s.toList.takeWhile isNameChar)

def constantKeyword : String := "const "

def functionKeyword : String := "public function "

def propertyKeyword : String := "protected $"

namespace Class

/-- The declarations of constants in the text of a class. -/
def constantDeclarations (c : Class) : List String :=
  c.lines.filterMap (declaration? (indentation ++ constantKeyword))

/-- The declarations of methods in the text of a class. -/
def methodDeclarations (c : Class) : List String :=
  c.lines.filterMap (declaration? (indentation ++ functionKeyword))

/-- The names of the constants that the text of a class declares. -/
def declaredConstants (c : Class) : List String := c.constantDeclarations.map readName

/-- The names of the methods that the text of a class declares. -/
def declaredMethods (c : Class) : List String := c.methodDeclarations.map readName

end Class

variable {s t : String} {c : Class}

/-! ## Names -/

theorem takeWhile_append_of_stop {q : Char → Bool} {xs ys : List Char} (h : ys.takeWhile q = []) :
    (xs ++ ys).takeWhile q = xs.takeWhile q := by
  induction xs with
  | nil => exact h
  | cons x xs ih =>
    by_cases hx : q x = true <;> simp [hx, ih]

/-- A name ends before a character that is none of a name. -/
theorem readName_append (h : (t.toList.head?.any isNameChar) = false) :
    readName (s ++ t) = readName s := by
  have hstop : t.toList.takeWhile isNameChar = [] := by
    cases ht : t.toList with
    | nil => rfl
    | cons x xs =>
      rw [ht] at h
      exact List.takeWhile_cons_of_neg (by simpa using h)
  unfold readName
  rw [String.toList_append, takeWhile_append_of_stop hstop]

theorem readName_prepend (h : s.toList.all isNameChar = true) :
    readName (s ++ t) = s ++ readName t := by
  unfold readName
  rw [String.toList_append, List.takeWhile_append_of_pos (List.all_eq_true.1 h),
    String.ofList_append, String.ofList_toList]

/-! ## Members -/

theorem reads_constantKeyword :
    Reads (declaration? (indentation ++ constantKeyword)) (declaration? constantKeyword) :=
  reads_declaration (by decide)

theorem reads_functionKeyword :
    Reads (declaration? (indentation ++ functionKeyword)) (declaration? functionKeyword) :=
  reads_declaration (by decide)

theorem reads_propertyKeyword :
    Reads (declaration? (indentation ++ propertyKeyword)) (declaration? propertyKeyword) :=
  reads_declaration (by decide)

namespace Property

theorem readName_constantDeclaration (p : Property) :
    readName p.constantDeclaration = readName (constantName p.name) := by
  have hstop : isNameChar ' ' = false := by decide
  unfold constantDeclaration
  rw [String.append_assoc, String.append_assoc,
    readName_append (by simp [String.toList_append, hstop])]

theorem declaration?_constantHead (p : Property) :
    declaration? constantKeyword p.constantHead = some p.constantDeclaration ∧
      declaration? functionKeyword p.constantHead = none ∧
      declaration? propertyKeyword p.constantHead = none := by
  have hother : p.constantHead.toList.head? ≠ some 'p' := by
    simp [constantHead, String.toList_append]
  exact ⟨declaration?_append, declaration?_eq_none rfl hother, declaration?_eq_none rfl hother⟩

theorem declaration?_propertyHead (p : Property) :
    declaration? constantKeyword p.propertyHead = none ∧
      declaration? functionKeyword p.propertyHead = none ∧
      declaration? propertyKeyword p.propertyHead = some (p.name ++ ";") := by
  refine ⟨?_, ?_, declaration?_append⟩ <;>
    simp [declaration?, propertyHead, constantKeyword, functionKeyword, String.toList_append,
      List.isPrefixOf?]

theorem declaration?_accessorHead (kind : String) (p : Property) (rest : String) :
    declaration? constantKeyword (accessorHead kind p rest) = none ∧
      declaration? functionKeyword (accessorHead kind p rest) =
        some (kind ++ accessorSuffix p.name ++ ("(" ++ rest)) ∧
      declaration? propertyKeyword (accessorHead kind p rest) = none := by
  refine ⟨?_, declaration?_append, ?_⟩ <;>
    simp [declaration?, accessorHead_eq, constantKeyword, propertyKeyword, String.toList_append,
      List.isPrefixOf?]

/-- An accessor is named by the word for its kind and the suffix of the property. -/
theorem readName_accessor (kind : String) (p : Property) (rest : String)
    (hkind : kind.toList.all isNameChar = true) :
    readName (kind ++ accessorSuffix p.name ++ ("(" ++ rest)) =
      kind ++ readName (accessorSuffix p.name) := by
  have hstop : isNameChar '(' = false := by decide
  rw [readName_append (by simp [String.toList_append, hstop]), readName_prepend hkind]

end Property

/-! ## Classes -/

namespace Class

/-- The name of the constructor, if the class has one. -/
def constructorName (c : Class) : List String :=
  if c.members.filterMap Property.assignment? = [] then [] else ["__construct"]

/-- The constructor declares itself, no constant and no property. -/
theorem filterMap_constructorHead (c : Class) :
    c.constructorHead.filterMap (declaration? constantKeyword) = [] ∧
      c.constructorHead.filterMap (declaration? functionKeyword) =
        c.constructorName.map (· ++ "()") ∧
      c.constructorHead.filterMap (declaration? propertyKeyword) = [] := by
  unfold constructorHead constructorName
  split
  · exact ⟨rfl, rfl, rfl⟩
  · decide

/-- What the lines say after the keywords that declare the members of a class. -/
theorem filterMap_memberHeads (c : Class) :
    c.memberHeads.filterMap (declaration? constantKeyword) =
        c.constants.map Property.constantDeclaration ∧
      c.memberHeads.filterMap (declaration? functionKeyword) =
        c.constructorName.map (· ++ "()") ++ c.members.flatMap (fun p =>
          ["get" ++ accessorSuffix p.name ++ ("(" ++ p.getterRest),
            "set" ++ accessorSuffix p.name ++ ("(" ++ p.setterRest)]) ∧
      c.memberHeads.filterMap (declaration? propertyKeyword) = c.members.map (·.name ++ ";") := by
  unfold memberHeads
  refine ⟨?_, ?_, ?_⟩ <;>
    simp [List.filterMap_flatMap, List.filterMap_map, Property.declaration?_constantHead,
      Property.declaration?_propertyHead, Property.declaration?_accessorHead,
      filterMap_constructorHead]

theorem isShallow_of_abstract (h : c.modifiers = ["abstract"]) : IsShallow c.openingLine :=
  isShallow_openingLine (by rw [h]; decide)

/-- The constants that the text of a class declares are its own, whatever body it has that starts
with no constant. -/
theorem constantDeclarations_of_shallow (hopening : IsShallow c.openingLine)
    (hbody : ∀ l ∈ c.bodyLines, declaration? (indentation ++ constantKeyword) l = none) :
    c.constantDeclarations = c.constants.map Property.constantDeclaration := by
  unfold constantDeclarations
  rw [reads_constantKeyword.filterMap_lines hopening, List.filterMap_eq_nil_iff.2 hbody,
    List.append_nil, c.filterMap_memberHeads.1]

theorem constantDeclarations_eq (hmodifiers : c.modifiers = ["abstract"]) (hbody : c.body = none) :
    c.constantDeclarations = c.constants.map Property.constantDeclaration := by
  apply constantDeclarations_of_shallow (isShallow_of_abstract hmodifiers)
  rw [bodyLines_eq_nil hbody]
  exact List.forall_mem_nil _

theorem declaredConstants_eq (hmodifiers : c.modifiers = ["abstract"]) (hbody : c.body = none) :
    c.declaredConstants = c.constants.map fun p => readName (constantName p.name) := by
  unfold declaredConstants
  rw [constantDeclarations_eq hmodifiers hbody, List.map_map]
  exact List.map_congr_left fun p _ => p.readName_constantDeclaration

/-- The methods that the text of a class declares: the constructor, if there is one, and the
accessors of the members. -/
theorem declaredMethods_eq (hmodifiers : c.modifiers = ["abstract"]) (hbody : c.body = none) :
    c.declaredMethods = c.constructorName ++ c.members.flatMap fun p =>
      ["get" ++ readName (accessorSuffix p.name), "set" ++ readName (accessorSuffix p.name)] := by
  have hconstructor : (c.constructorName.map (· ++ "()")).map readName = c.constructorName := by
    unfold constructorName
    split <;> decide
  have haccessors (p : Property) :=
    And.intro (Property.readName_accessor "get" p p.getterRest (by decide))
      (Property.readName_accessor "set" p p.setterRest (by decide))
  unfold declaredMethods methodDeclarations
  rw [reads_functionKeyword.filterMap_lines_of_body (isShallow_of_abstract hmodifiers) hbody,
    c.filterMap_memberHeads.2.1, List.map_append, hconstructor, List.map_flatMap]
  simp only [List.map_cons, List.map_nil, haccessors]

/-- The lines of the text are the lines of the class, if none of them has a line break. -/
theorem splitOn_text (c : Class) (h : ∀ l ∈ c.lines, '\n' ∉ l.toList) :
    c.text.toList.splitOn '\n' = c.lines.map String.toList := by
  have hne : c.lines.map String.toList ≠ [] := by
    simp [lines]
  unfold text
  rw [String.toList_intercalate]
  apply List.splitOn_intercalate _ _ hne
  rw [List.forall_mem_map]
  exact h

/-! ## Repetitions -/

/-- Getters and setters are repeated only where suffixes are. -/
theorem nodup_accessors_iff (suffixes : List String) :
    (suffixes.flatMap fun s => ["get" ++ s, "set" ++ s]).Nodup ↔ suffixes.Nodup := by
  have hgetset (s t : String) : "get" ++ s ≠ "set" ++ t := by
    intro heq
    have hlist := congrArg String.toList heq
    simp [String.toList_append] at hlist
  induction suffixes with
  | nil => simp
  | cons s suffixes ih =>
    have hget : "get" ++ s ∈ (suffixes.flatMap fun s => ["get" ++ s, "set" ++ s]) ↔
        s ∈ suffixes := by
      simp [hgetset, String.append_right_inj]
    have hset : "set" ++ s ∈ (suffixes.flatMap fun s => ["get" ++ s, "set" ++ s]) ↔
        s ∈ suffixes := by
      simp [(hgetset _ _).symm, String.append_right_inj]
    rw [List.flatMap_cons, List.nodup_cons]
    simp only [List.cons_append, List.nil_append, List.nodup_cons, List.mem_cons, hget, hset, ih,
      hgetset]
    tauto

/-- The methods of a class are repeated only where the suffixes of two members are the same. -/
theorem nodup_declaredMethods_iff (hmodifiers : c.modifiers = ["abstract"])
    (hbody : c.body = none) : c.declaredMethods.Nodup ↔
      (c.members.map fun p => readName (accessorSuffix p.name)).Nodup := by
  have haccessors := nodup_accessors_iff
    (c.members.map fun p => readName (accessorSuffix p.name))
  rw [List.flatMap_map] at haccessors
  rw [declaredMethods_eq hmodifiers hbody, ← haccessors]
  unfold constructorName
  split
  · rw [List.nil_append]
  · rw [List.singleton_append, List.nodup_cons, and_iff_right]
    rw [List.mem_flatMap]
    rintro ⟨p, _, hp⟩
    rcases List.mem_cons.1 hp with hp | hp
    · have hlist := congrArg String.toList hp
      simp [String.toList_append] at hlist
    · have hlist := congrArg String.toList (List.mem_singleton.1 hp)
      simp [String.toList_append] at hlist

end Class
end OrmGen.Php
