/-
  What a YAML document holds, before scalars have a meaning and aliases are followed. A node
  may have an anchor and a tag.
-/
import OrmGen.Yaml.Token

namespace OrmGen.Yaml

/-- The tags that bear on the value of a node. -/
inductive Tag where
  | null
  | bool
  | int
  | float
  /-- A tag of an application, which starts with an exclamation mark. -/
  | application
  | other
deriving DecidableEq, Repr

namespace Tag

/-- What the handle of the tags of the language stands for. -/
def coreNamespace : List UInt8 := "tag:yaml.org,2002:".toUTF8.toList

/-- The tag with a spelling, `none` if it is to be ignored. -/
def ofBytes? (bytes : List UInt8) : Option Tag :=
  let core := fun (name : String) => coreNamespace ++ name.toUTF8.toList
  if bytes.head? = some 0x21 then
    if (String.fromUTF8? ⟨bytes.toArray⟩).isSome then some .application else none
  else if bytes = core "null" then some .null
  else if bytes = core "bool" then some .bool
  else if bytes = core "int" then some .int
  else if bytes = core "float" then some .float
  else some .other

end Tag

inductive Node where
  | reference (number : Nat)
  | scalar (anchor : Option Nat) (tag : Option Tag) (text : String) (isPlain : Bool)
  | sequence (anchor : Option Nat) (tag : Option Tag) (items : List Node)
  | mapping (anchor : Option Nat) (tag : Option Tag) (pairs : List (Node × Node))
deriving Inhabited

namespace Node

/-- The node where a text has none. -/
def empty : Node := .scalar none none "" true

/-- A node under an anchor. -/
def anchored (n : Node) : Option Nat → List (Nat × Node)
  | some k => [(k, n)]
  | none => []

mutual

/-- How many events spell a node: a collection has a start and an end. -/
def events : Node → Nat
  | .reference _ | .scalar .. => 1
  | .sequence _ _ items => 2 + itemEvents items
  | .mapping _ _ pairs => 2 + pairEvents pairs

def itemEvents : List Node → Nat
  | [] => 0
  | n :: ns => events n + itemEvents ns

def pairEvents : List (Node × Node) → Nat
  | [] => 0
  | (k, v) :: ps => events k + events v + pairEvents ps

end

mutual

/-- The nodes with an anchor, in the order in which they start. -/
def anchors : Node → List (Nat × Node)
  | .reference _ => []
  | .scalar a t s p => anchored (.scalar a t s p) a
  | .sequence a t items => anchored (.sequence a t items) a ++ itemAnchors items
  | .mapping a t pairs => anchored (.mapping a t pairs) a ++ pairAnchors pairs

def itemAnchors : List Node → List (Nat × Node)
  | [] => []
  | n :: ns => anchors n ++ itemAnchors ns

def pairAnchors : List (Node × Node) → List (Nat × Node)
  | [] => []
  | (k, v) :: ps => anchors k ++ anchors v ++ pairAnchors ps

end

end Node
end OrmGen.Yaml
