/-
  Cardinalities: how many entities stand at one end of a relation.

  A literal count is a way of writing `one` (up to 1) or `many` (from 2 on);
  `Cardinality.normalized` maps it there. Generated classes see normalized cardinalities
  only, the diagram shows the count.
-/
import OrmGen.Text.Blank
import OrmGen.Text.Count
import OrmGen.Text.Upper

namespace OrmGen

/-- How many entities stand at one end of a relation. -/
inductive Cardinality where
  | one
  | many
  | enumeration
  | fixed (count : UInt32)
deriving DecidableEq, Repr

namespace Cardinality

/-- The cardinality that a text names, in any case and with white space around it. -/
def parse? (s : String) : Option Cardinality :=
  let word := Text.lowerAscii (Text.trim s)
  if word = "one" then some .one
  else if word = "many" then some .many
  else if word = "enum" then some .enumeration
  else (Text.toCount? word.toList).map .fixed

/-- Literal counts collapsed into `one` and `many`. -/
def normalized : Cardinality → Cardinality
  | .fixed n => if n ≤ 1 then .one else .many
  | c => c

def isMany (c : Cardinality) : Bool := c.normalized = .many

/-- The name of a cardinality; `parse?` reads it back. -/
def text : Cardinality → String
  | .one => "one"
  | .many => "many"
  | .enumeration => "enum"
  | .fixed n => Text.ofCount n

/-- The mark at the end of a diagram line. -/
def marker : Cardinality → String
  | .one | .enumeration => "1"
  | .many => "n"
  | .fixed n => Text.ofCount n

theorem normalized_normalized (c : Cardinality) : c.normalized.normalized = c.normalized := by
  cases c with
  | fixed n => by_cases h : n ≤ 1 <;> simp [normalized, h]
  | _ => rfl

end Cardinality
end OrmGen
