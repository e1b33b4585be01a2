/-
  Anchors by number. The number of an anchor is how many names the document has given to
  anchors before it. A name that is given again still counts once, so its number returns at
  the next new name.
-/
namespace OrmGen.Yaml

/-- The names of the anchors so far, each with the number that it had last. -/
abbrev AnchorNumbers := List (String × Nat)

/-- Give `name` the next number. -/
def AnchorNumbers.assign (ns : AnchorNumbers) (name : String) : AnchorNumbers :=
  (name, ns.length) :: ns.filter (·.1 ≠ name)

end OrmGen.Yaml
