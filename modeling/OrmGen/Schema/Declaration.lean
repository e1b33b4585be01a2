/-
  Reading a schema from its declarations: a mapping from entity names to mappings from
  member names to definitions.

  A member whose definition is a mapping is structured: a relation if the definition has the
  key `relation`, a field if not. Any other member is a bare value and makes its entity an
  enumeration; the two forms do not mix. Relations come out one-sided, with an open source
  endpoint that linking fills in.
-/
import OrmGen.Error

namespace OrmGen.Schema

/-- A member of an entity. -/
inductive Member where
  | field (f : Field)
  | relation (r : Relation)

/-- The string that a definition must have under `property`. -/
def requireText (entity field property : String) (definition : List (String × Json)) :
    Except Error String :=
  match Json.member? property definition with
  | none | some .null => .error (.missingProperty entity field property)
  | some (.string s) => .ok s
  | some v => .error (.badScalar entity field property .text v)

/-- A cardinality, as its name or as a literal count. -/
def cardinalityOf? : Json → Option Cardinality
  | .string s => Cardinality.parse? s
  | .number n => n.toUInt32?.map .fixed
  | _ => none

/-- A size, as a count or as a text that spells one. -/
def sizeOf? : Json → Option UInt32
  | .number n => n.toUInt32?
  | .string s => Text.toCount? (Text.trim s).toList
  | _ => none

/-- A truth value, as such or as a text that spells one. -/
def booleanOf? : Json → Option Bool
  | .bool b => some b
  | .string s => if s = "true" then some true else if s = "false" then some false else none
  | _ => none

/-- The text of a scalar: strings as they are, numbers and booleans as JSON spells them. -/
def scalarText? : Json → Option String
  | .string s => some s
  | .number n => some n.text
  | .bool b => some (if b then "true" else "false")
  | _ => none

/-- Apply `read` to an optional property; an absent or null one has the value `default`. -/
def optional {α : Type} (definition : List (String × Json)) (property : String) (default : α)
    (read : Json → Except Error α) : Except Error α :=
  match Json.member? property definition with
  | none | some .null => .ok default
  | some v => read v

/-- Turn a missing value into an error. -/
def orError {α : Type} (v : Option α) (e : Error) : Except Error α :=
  match v with
  | some a => .ok a
  | none => .error e

/-- The relation declared by `definition`, whose key `relation` holds `cardinality`. -/
def readRelation (entity field : String) (definition : List (String × Json))
    (cardinality : Json) : Except Error Relation := do
  let target ← requireText entity field "target" definition
  let c ← orError (cardinalityOf? cardinality) (.badCardinality entity field cardinality)
  return ⟨⟨entity, "", .one⟩, ⟨target, field, c⟩⟩

/-- The field declared by `definition`. Its value is the property `value`, or else `target`. -/
def readField (entity field : String) (definition : List (String × Json)) :
    Except Error Field := do
  let typeName ← requireText entity field "type" definition
  let size ← optional definition "size" none fun v =>
    (orError (sizeOf? v) (.badScalar entity field "size" .positiveInteger v)).map some
  let nullable ← optional definition "nullable" false fun v =>
    orError (booleanOf? v) (.badScalar entity field "nullable" .boolean v)
  let visibility ← optional definition "modifier" .subclasses fun v =>
    orError ((scalarText? v).bind Visibility.parse?) (.badVisibility entity field v)
  let value := (Json.member? "value" definition).bind scalarText?
  let target := (Json.member? "target" definition).bind scalarText?
  return {
    name := field
    typeName := typeName
    nullable := nullable
    size := size
    visibility := visibility
    value := value.orElse fun _ => target
    raw := some (Json.Object.ofMembers definition) }

/-- The type name of an enumeration member with a given value. -/
def valueTypeName : Json → String
  | .string _ => "string"
  | .number _ => "integer"
  | .bool _ => "boolean"
  | _ => "unknown"

/-- The member of an enumeration declared by a bare value, which it keeps as JSON text. -/
def enumMember (name : String) (v : Json) : Field where
  name := name
  typeName := valueTypeName v
  nullable := false
  size := none
  visibility := .everyone
  value := some v.text
  raw := none

/-- One member of an entity. -/
def readMember (entity name : String) : Json → Except Error Member
  | .object definition =>
    match Json.member? "relation" definition with
    | some c => (readRelation entity name definition c).map .relation
    | none => (readField entity name definition).map .field
  | v => .ok (.field (enumMember name v))

/-- Whether a member is structured. -/
def isStructured : Json → Bool
  | .object _ => true
  | _ => false

/-- The members of an entity, up to the first error. `form` is the form of the members
before, if there are any. -/
def readMembers (entity : String) (form : Option Bool) :
    List (String × Json) → Except Error (List Member)
  | [] => .ok []
  | (name, v) :: rest => do
    if form.any (· ≠ isStructured v) then throw (.mixedMembers entity name)
    let m ← readMember entity name v
    let ms ← readMembers entity (some (isStructured v)) rest
    return m :: ms

/-- The entity with the given members. -/
def ofMembers (name : String) (kind : EntityKind) (members : List Member) : Entity where
  name := name
  kind := kind
  fields := OrderedMap.ofList <| members.filterMap fun
    | .field f => some (f.name, f)
    | .relation _ => none
  relations := OrderedMap.ofList <| members.filterMap fun
    | .relation r => some (r.target.name, r)
    | .field _ => none

/-- One entity. A null stands for an enumeration without members. -/
def readEntity (name : String) : Json → Except Error Entity
  | .object members => do
    let kind := if members.any fun m => isStructured m.2 then .entity else .enumeration
    return ofMembers name kind (← readMembers name none members)
  | .null => .ok (ofMembers name .enumeration [])
  | _ => .error (.entityNotMapping name)

/-- The entities of a mapping, up to the first error. -/
def readEntities : List (String × Json) → Except Error (List Entity)
  | [] => .ok []
  | (name, v) :: rest => do
    let e ← readEntity name v
    let es ← readEntities rest
    return e :: es

/-- The schema that a value declares, not yet linked. -/
def ofDeclarations : Json → Except Error Schema
  | .object members => do
    return (← readEntities members).foldl addEntity empty
  | _ => .error .entitiesNotMapping

end OrmGen.Schema
