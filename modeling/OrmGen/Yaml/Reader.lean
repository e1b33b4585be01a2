/-
  Reading YAML as a JSON value. Keys are the texts of scalars, as they stand. An alias means
  the last node with the number of its anchor, also one that starts after it. Collections nest
  at most 128 deep, aliases counted with what they mean, which also ends every cycle; and
  aliases are followed at most 100 times for each event of the document.
-/
import OrmGen.Yaml.Node.Grammar
import OrmGen.Yaml.Scalar.Meaning
import OrmGen.Yaml.Token.Lexer

namespace OrmGen.Yaml

/-- The most collections around each other. -/
def depthLimit : Nat := 128

/-- How often aliases are followed for each event. -/
def followsPerEvent : Nat := 100

/-- Reading counts how many more aliases may be followed. -/
abbrev Following := StateT Nat Option

namespace Node

/-- The node itself, or the one that an alias means. -/
def follow (targets : List (Nat × Node)) : Node → Following Node
  | .reference k => do
    match ← get with
    | 0 => failure
    | n + 1 => set n
    targets.lookup k
  | n => pure n

/-- The text of a key. -/
def keyText (targets : List (Nat × Node)) (n : Node) : Following String := do
  match ← n.follow targets with
  | .scalar _ _ s _ => pure s
  | _ => failure

/-- The value of a node that `depth` collections may nest in. -/
def value (targets : List (Nat × Node)) : Nat → Node → Following Json
  | depth, n => do
    match ← n.follow targets, depth with
    | .scalar _ tag s isPlain, _ => Scalar.value? tag s isPlain
    | .sequence _ tag items, depth + 1 => do
      guard (tag ≠ some .application)
      return .array (← items.mapM (value targets depth))
    | .mapping _ tag pairs, depth + 1 => do
      guard (tag ≠ some .application)
      return .object (← pairs.mapM fun (k, v) => do
        return (← k.keyText targets, ← value targets depth v))
    | _, _ => failure

/-- The value of a whole document. -/
def value? (n : Node) : Option Json :=
  (value n.anchors.reverse depthLimit n).run' (followsPerEvent * n.events)

end Node

/-- The value that a text of one document spells, without repeated keys. -/
def read? (s : String) : Option Json := do
  let n ← Node.ofAllTokens? (← Token.ofText? s)
  return (← n.value?).settled

end OrmGen.Yaml
