/-
  Imports of a class. An import binds a name to the path of a symbol; a table of imports is
  a map from names to imports, in order of registration. It has each import under the import's
  own name, and never changes a binding. A call on a table that is refused leaves it as it is
  (`ImportTable.apply`).
-/
import OrmGen.Error
import OrmGen.Text.Split

namespace OrmGen.Php

/-- A name for the symbol at a path. -/
structure Import where
  path : String
  name : String
deriving DecidableEq, Repr

namespace Import

/-- The import that a statement declares, `A\B` or `A\B as C`. Without `as` the symbol's
own name is one. -/
def parse (statement : String) : Import :=
  let cs := (Text.stripBy Text.isBlank statement.toList).dropWhile (· = '\\')
  match Text.splitOnce? " as ".toList cs with
  | some (path, name) =>
    ⟨String.ofList (Text.stripBy Text.isBlank path),
      String.ofList (Text.stripBy Text.isBlank name)⟩
  | none => ⟨String.ofList cs, String.ofList (Text.afterLast '\\' cs)⟩

/-- The namespace of the symbol. -/
def namespacePart (i : Import) : String := String.ofList (Text.beforeLast '\\' i.path.toList)

/-- The name of the symbol. -/
def symbol (i : Import) : String := String.ofList (Text.afterLast '\\' i.path.toList)

/-- The statement for an import, which says the name only if it is not the symbol's. -/
def statement (i : Import) : String :=
  if i.symbol = i.name then i.path else i.path ++ " as " ++ i.name

end Import

/-- The imports bound so far, each at its own name. -/
structure ImportTable where
  bindings : OrderedMap Import
  keyed : ∀ n i, bindings.get? n = some i → i.name = n

namespace ImportTable

theorem ext {t u : ImportTable} (h : t.bindings = u.bindings) : t = u := by
  cases t; cases u; cases h; rfl

instance : DecidableEq ImportTable := fun t u =>
  if h : t.bindings = u.bindings then isTrue (ext h) else isFalse fun e => h (e ▸ rfl)

def empty : ImportTable := ⟨.empty, fun _ _ h => nomatch h⟩

/-- The imports in order of registration. -/
def imports (t : ImportTable) : List Import := t.bindings.values

/-- The import that binds a name. -/
def get? (t : ImportTable) (name : String) : Option Import := t.bindings.get? name

def size (t : ImportTable) : Nat := t.bindings.size

/-- The table with an import at the import's name. -/
def bind (t : ImportTable) (i : Import) : ImportTable where
  bindings := t.bindings.insert i.name i
  keyed n j h := by
    rw [OrderedMap.get?_insert] at h
    split at h
    · rename_i hn
      rw [hn, ← Option.some.inj h]
    · exact t.keyed n j h

/-- Bind the name of an import. A name that is bound to the same path stays as it is, one
bound to another path is a conflict. -/
def register (t : ImportTable) (i : Import) : Except Error ImportTable :=
  match t.get? i.name with
  | some bound =>
    if bound.path = i.path then .ok t else .error (.importConflict i.name bound.path i.path)
  | none => .ok (t.bind i)

/-- Register the import that a statement declares. -/
def add (t : ImportTable) (statement : String) : Except Error ImportTable :=
  t.register (Import.parse statement)

/-- Register the imports that statements declare, up to the first conflict. -/
def addAll (t : ImportTable) : List String → Except Error ImportTable
  | [] => .ok t
  | s :: ss => do (← t.add s).addAll ss

/-- A call on a table: an import to bind, or a statement that declares one. -/
inductive Call where
  | register (i : Import)
  | add (statement : String)
deriving DecidableEq, Repr

/-- The table after a call that is not refused. -/
def change (t : ImportTable) : Call → Except Error ImportTable
  | .register i => t.register i
  | .add statement => t.add statement

/-- The answer to a call and the table after it, which is the same table if the call is
refused. -/
def apply (t : ImportTable) (c : Call) : Except Error Unit × ImportTable :=
  match t.change c with
  | .ok t' => (.ok (), t')
  | .error e => (.error e, t)

/-- The answers to calls made one after another and the table after them. -/
def applyAll (t : ImportTable) : List Call → List (Except Error Unit) × ImportTable
  | [] => ([], t)
  | c :: cs =>
    let (answer, t₁) := t.apply c
    let (answers, t') := t₁.applyAll cs
    (answer :: answers, t')

end ImportTable
end OrmGen.Php
