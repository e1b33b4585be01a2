/-
  Values as a text writes them. What follows the grammar need not have a value: a number may
  be too large, a string may hold half of a surrogate pair, and too many arrays and objects
  may be around each other. That matters only where a value is looked at, so a reader says with
  a `Form` which parts it wants: `Written.read?` takes them out, and passes over the others.
-/
import OrmGen.Json.Number
import OrmGen.Json.Literal

namespace OrmGen.Json

/-- Which parts of a value a reader looks at. -/
inductive Form where
  | whole
  /-- The members with these keys, or an array with one item for each of them, in order. -/
  | record (fields : List (String × Form))
  /-- All members of an object, and of each of them the same. -/
  | map (values : Form)

namespace Form

/-- What is looked at in the member with key `k`, `none` if it is passed over. -/
def member? : Form → String → Option Form
  | .whole, _ => some .whole
  | .record fields, k => fields.lookup k
  | .map values, _ => some values

/-- What is looked at in the item with index `i`. -/
def item? : Form → Nat → Option Form
  | .whole, _ => some .whole
  | .record fields, i => fields[i]?.map Prod.snd
  | .map values, _ => some values

end Form

/-- A value as it is written. -/
inductive Written where
  | null
  | bool (b : Bool)
  | number (s : Number.Spelling)
  | string (pieces : List Literal.Piece)
  | array (items : List Written)
  | object (members : List (List Literal.Piece × Written))

namespace Written

mutual

/-- The parts of a value that belong to `form`, if all of them can be read and at most
`depth` arrays and objects are around each other in them. -/
def read? : Nat → Form → Written → Option Json
  | _, _, .null => some .null
  | _, _, .bool b => some (.bool b)
  | _, _, .number s => s.number?.map .number
  | _, _, .string ps => (Literal.text? ps).map .string
  | 0, _, .array _ | 0, _, .object _ => none
  | depth + 1, form, .array items => (readItems? depth form 0 items).map .array
  | depth + 1, form, .object members => (readMembers? depth form members).map .object

/-- Read items, of which the first has index `i`. -/
def readItems? : Nat → Form → Nat → List Written → Option (List Json)
  | _, _, _, [] => some []
  | depth, form, i, w :: ws => do
    let v ← read? depth (← form.item? i) w
    let vs ← readItems? depth form (i + 1) ws
    return v :: vs

/-- Read the members that belong to `form`. The keys of the others must be readable too. -/
def readMembers? : Nat → Form → List (List Literal.Piece × Written) →
    Option (List (String × Json))
  | _, _, [] => some []
  | depth, form, (ps, w) :: ms => do
    let k ← Literal.text? ps
    match form.member? k with
    | none => readMembers? depth form ms
    | some part =>
      let v ← read? depth part w
      let vs ← readMembers? depth form ms
      return (k, v) :: vs

end

end Written
end OrmGen.Json
