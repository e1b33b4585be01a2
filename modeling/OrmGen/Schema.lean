/-
  Entity schemas. A schema is an ordered map of entities, an entity has ordered maps of
  fields and relations. A relation has two endpoints: `target` is the far end as declared,
  `source` the near end, known only once the schema is linked.

  `Relation.canonicalId` names a relation by its two endpoints whichever end it is seen
  from; `Relation.pairId` also disregards cardinalities.
-/
import OrmGen.Json
import OrmGen.Schema.Cardinality
import OrmGen.Schema.Visibility

namespace OrmGen

/-- One end of a relation: an entity, the name of the field the relation creates there, and
how many of them there are. -/
structure Endpoint where
  entity : String
  name : String
  cardinality : Cardinality
deriving DecidableEq, Repr

/-- A relation seen from the entity that declares it. -/
structure Relation where
  source : Endpoint
  target : Endpoint
deriving DecidableEq, Repr

/-- A field of an entity, or a member of an enumeration. `raw` is the definition it was read
from. -/
structure Field where
  name : String
  typeName : String
  nullable : Bool
  size : Option UInt32
  visibility : Visibility
  value : Option String
  raw : Option Json.Object
deriving DecidableEq

/-- Entities carry structured fields and relations, enumerations bare values. -/
inductive EntityKind where
  | entity
  | enumeration
deriving DecidableEq, Repr

structure Entity where
  name : String
  kind : EntityKind
  fields : OrderedMap Field
  relations : OrderedMap Relation
deriving DecidableEq

structure Schema where
  entities : OrderedMap Entity
deriving DecidableEq

namespace Endpoint

/-- Entity, field and cardinality, as in `Post posts [many]`. -/
def text (p : Endpoint) : String :=
  p.entity ++ " " ++ p.name ++ " [" ++ p.cardinality.text ++ "]"

/-- Entity and field, as in `Post.posts`. -/
def path (p : Endpoint) : String := p.entity ++ "." ++ p.name

end Endpoint

/-- Two texts in ascending order with `sep` between them. -/
def joinSorted (sep a b : String) : String :=
  if b < a then b ++ sep ++ a else a ++ sep ++ b

namespace Relation

/-- The relation seen from its other end. -/
def swap (r : Relation) : Relation := ⟨r.target, r.source⟩

def canonicalId (r : Relation) : String := joinSorted " -> " r.source.text r.target.text

def pairId (r : Relation) : String := joinSorted " <-> " r.source.path r.target.path

end Relation

namespace Field

/-- The type name of a field that refers to an enumeration. -/
def enumType : String := "enum"

/-- Whether the field refers to an enumeration, which its value names. -/
def isEnumReference (f : Field) : Bool := f.typeName = enumType

end Field

/-- The name of a kind. -/
def EntityKind.text : EntityKind → String
  | .entity => "entity"
  | .enumeration => "enum"

namespace Entity

/-- An entity without members. -/
def bare (name : String) (kind : EntityKind) : Entity := ⟨name, kind, .empty, .empty⟩

/-- Add a field under its name, over an earlier one of that name. -/
def addField (e : Entity) (f : Field) : Entity := { e with fields := e.fields.insert f.name f }

/-- Add a relation under the name of the field it creates. -/
def addRelation (e : Entity) (r : Relation) : Entity :=
  { e with relations := e.relations.insert r.target.name r }

def isEnum (e : Entity) : Bool := e.kind = .enumeration

end Entity

namespace Schema

def empty : Schema := ⟨.empty⟩

/-- Add an entity under its name, over an earlier one of that name. -/
def addEntity (s : Schema) (e : Entity) : Schema := ⟨s.entities.insert e.name e⟩

def get? (s : Schema) (name : String) : Option Entity := s.entities.get? name

end Schema

/-- Text order decides which end comes first, so both ends give one name. -/
theorem joinSorted_comm (sep a b : String) : joinSorted sep a b = joinSorted sep b a := by
  unfold joinSorted
  by_cases h : b < a
  · have : ¬ a < b := String.lt_asymm h
    simp [h, this]
  · by_cases h' : a < b
    · simp [h, h']
    · rw [String.le_antisymm (String.not_lt.1 h) (String.not_lt.1 h')]

theorem Relation.canonicalId_swap (r : Relation) : r.swap.canonicalId = r.canonicalId :=
  joinSorted_comm ..

theorem Relation.pairId_swap (r : Relation) : r.swap.pairId = r.pairId := joinSorted_comm ..

end OrmGen
