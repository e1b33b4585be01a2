/-
  The stored form of a schema: a JSON value that holds everything in it, `Schema.toJson`,
  and its reader, `Schema.ofJson?`.

  A record is an object with one member per field, in any order and among others, or an
  array of its fields in order; a repeated field is an error, and a field that may be absent
  may be left out of an object. A choice without contents is its name, alone or as the key
  of a null. Maps keep the keys they are stored with, whatever the names inside. From a text
  only the fields of records are read: what stands among them need not have a value.
-/
import OrmGen.Json.Reader
import OrmGen.Json.Text
import OrmGen.Schema

namespace OrmGen

namespace Json.Stored

/-- The value that each field of a record has, if it has one. -/
abbrev Record := List (String × Json)

/-- The fields of a kind of record, with what is read of each. -/
abbrev Fields := List (String × Form)

/-- Take a record with the given fields apart. -/
def record? (fields : Fields) : Json → Option Record
  | .object members =>
    let known := members.filter fun m => (fields.lookup m.1).isSome
    if (known.map Prod.fst).Nodup then some known else none
  | .array items =>
    if items.length = fields.length then some ((fields.map Prod.fst).zip items) else none
  | _ => none

def text? : Json → Option String
  | .string s => some s
  | _ => none

def bool? : Json → Option Bool
  | .bool b => some b
  | _ => none

def count? : Json → Option UInt32
  | .number n => n.toUInt32?
  | _ => none

def object? : Json → Option Json.Object
  | .object members => some (.ofMembers members)
  | _ => none

/-- A value that may be null. -/
def nullable? {α : Type} (read : Json → Option α) : Json → Option (Option α)
  | .null => some none
  | v => (read v).map some

/-- A field that must be there. -/
def required? {α : Type} (r : Record) (field : String) (read : Json → Option α) : Option α :=
  (member? field r).bind read

/-- A field that may be absent or null. -/
def optional? {α : Type} (r : Record) (field : String) (read : Json → Option α) :
    Option (Option α) :=
  match member? field r with
  | none => some none
  | some v => nullable? read v

/-- The name of a choice without contents. -/
def choice? : Json → Option String
  | .string s => some s
  | .object [(s, .null)] => some s
  | _ => none

/-- Read every value of a list of members. -/
def members? {α : Type} (read : Json → Option α) :
    List (String × Json) → Option (List (String × α))
  | [] => some []
  | (k, v) :: ms =>
    match read v, members? read ms with
    | some a, some as => some ((k, a) :: as)
    | _, _ => none

/-- A map, whose values all have to be readable. -/
def map? {α : Type} (read : Json → Option α) : Json → Option (OrderedMap α)
  | .object members => (members? read members).map OrderedMap.ofList
  | _ => none

def ofOption {α : Type} (write : α → Json) : Option α → Json
  | none => .null
  | some a => write a

def ofCount (n : UInt32) : Json := .number (.integer n.toNat)

def ofMap {α : Type} (write : α → Json) (m : OrderedMap α) : Json :=
  .object (m.entries.map fun e => (e.1, write e.2))

end Json.Stored

open Json.Stored

namespace Cardinality

def toJson : Cardinality → Json
  | .one => .string "One"
  | .many => .string "Many"
  | .enumeration => .string "Enum"
  | .fixed n => .object [("Fixed", Json.Stored.ofCount n)]

def ofJson? : Json → Option Cardinality
  | .object [("Fixed", v)] => (count? v).map .fixed
  | v =>
    match choice? v with
    | some "One" => some .one
    | some "Many" => some .many
    | some "Enum" => some .enumeration
    | _ => none

end Cardinality

namespace Visibility

def toJson : Visibility → Json
  | .everyone => .string "Public"
  | .subclasses => .string "Protected"
  | .self => .string "Private"

def ofJson? (v : Json) : Option Visibility :=
  match choice? v with
  | some "Public" => some .everyone
  | some "Protected" => some .subclasses
  | some "Private" => some .self
  | _ => none

end Visibility

namespace EntityKind

def toJson : EntityKind → Json
  | .entity => .string "Entity"
  | .enumeration => .string "Enum"

def ofJson? (v : Json) : Option EntityKind :=
  match choice? v with
  | some "Entity" => some .entity
  | some "Enum" => some .enumeration
  | _ => none

end EntityKind

namespace Endpoint

def toJson (p : Endpoint) : Json := .object [
  ("entity", .string p.entity), ("name", .string p.name), ("cardinality", p.cardinality.toJson)]

def storedFields : Fields := [("entity", .whole), ("name", .whole), ("cardinality", .whole)]

def ofJson? (v : Json) : Option Endpoint := do
  let r ← record? storedFields v
  let entity ← required? r "entity" text?
  let name ← required? r "name" text?
  let cardinality ← required? r "cardinality" Cardinality.ofJson?
  return ⟨entity, name, cardinality⟩

end Endpoint

namespace Relation

def toJson (r : Relation) : Json := .object [
  ("source", r.source.toJson), ("target", r.target.toJson)]

def storedFields : Fields :=
  [("source", .record Endpoint.storedFields), ("target", .record Endpoint.storedFields)]

def ofJson? (v : Json) : Option Relation := do
  let r ← record? storedFields v
  let source ← required? r "source" Endpoint.ofJson?
  let target ← required? r "target" Endpoint.ofJson?
  return ⟨source, target⟩

end Relation

namespace Field

def toJson (f : Field) : Json := .object [
  ("name", .string f.name), ("field_type", .string f.typeName), ("nullable", .bool f.nullable),
  ("size", ofOption Json.Stored.ofCount f.size), ("modifier", f.visibility.toJson),
  ("value", ofOption .string f.value), ("raw_data", ofOption (.object ·.members) f.raw)]

def storedFields : Fields := [
  ("name", .whole), ("field_type", .whole), ("nullable", .whole), ("size", .whole),
  ("modifier", .whole), ("value", .whole), ("raw_data", .whole)]

def ofJson? (v : Json) : Option Field := do
  let r ← record? storedFields v
  let name ← required? r "name" text?
  let typeName ← required? r "field_type" text?
  let nullable ← required? r "nullable" bool?
  let size ← optional? r "size" count?
  let visibility ← required? r "modifier" Visibility.ofJson?
  let value ← optional? r "value" text?
  let raw ← optional? r "raw_data" object?
  return ⟨name, typeName, nullable, size, visibility, value, raw⟩

end Field

namespace Entity

def toJson (e : Entity) : Json := .object [
  ("name", .string e.name), ("kind", e.kind.toJson), ("fields", ofMap Field.toJson e.fields),
  ("relations", ofMap Relation.toJson e.relations)]

def storedFields : Fields := [
  ("name", .whole), ("kind", .whole), ("fields", .map (.record Field.storedFields)),
  ("relations", .map (.record Relation.storedFields))]

def ofJson? (v : Json) : Option Entity := do
  let r ← record? storedFields v
  let name ← required? r "name" text?
  let kind ← required? r "kind" EntityKind.ofJson?
  let fields ← required? r "fields" (map? Field.ofJson?)
  let relations ← required? r "relations" (map? Relation.ofJson?)
  return ⟨name, kind, fields, relations⟩

end Entity

namespace Schema

/-- The stored form of a schema. -/
def toJson (s : Schema) : Json := .object [("entities", ofMap Entity.toJson s.entities)]

def storedFields : Fields := [("entities", .map (.record Entity.storedFields))]

/-- The schema that a value stores. -/
def ofJson? (v : Json) : Option Schema := do
  let r ← record? storedFields v
  return ⟨← required? r "entities" (map? Entity.ofJson?)⟩

/-- The schema that a text stores. -/
def ofText? (s : String) : Option Schema :=
  (Json.readParts? (.record storedFields) s).bind ofJson?

end Schema
end OrmGen
