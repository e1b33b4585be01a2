/-
  The tokens of YAML. Indentation has become tokens of its own: the start of a block
  collection, and one end for each. Anchors and aliases carry numbers in place of names.
-/
namespace OrmGen.Yaml

/-- The handle and the suffix of a tag. A suffix is spelled in bytes, since it may hold
escaped ones. -/
structure TagName where
  handle : String
  suffix : List UInt8
deriving DecidableEq, Repr

inductive Token where
  | version (major minor : Nat)
  | tagHandle (handle : String) (replacement : List UInt8)
  | documentStart
  | documentEnd
  | blockSequence
  | blockMapping
  | blockEnd
  | openSequence
  | closeSequence
  | openMapping
  | closeMapping
  | dash
  | comma
  | key
  | value
  | reference (number : Nat)
  | anchor (number : Nat)
  | tag (name : TagName)
  | scalar (text : String) (isPlain : Bool)
deriving DecidableEq, Repr

end OrmGen.Yaml
