/-
  Linking the relations of a schema. A relation of `S` to `T` is linked to its counterpart:
  the one relation of `T` whose target is `S`, whose target endpoint becomes the source
  endpoint. A relation of enum cardinality to an enumeration has no counterpart; its source
  is `S` itself, without a field name, many times.

  Linking has two phases. The first looks at all relations and changes nothing; it stops at
  the first relation without a source. The second goes through what was found and writes it,
  by the keys of the entity and of the relation (`setSource`).
-/
import OrmGen.Error

namespace OrmGen.Schema

/-- Whether a relation refers to an enumeration and so has no counterpart. -/
def isEnumRelation (r : Relation) (target : Entity) : Bool :=
  r.target.cardinality = .enumeration && target.kind = .enumeration

/-- The relations of `target` that point at the entity `source`. -/
def counterparts (source : String) (target : Entity) : List Relation :=
  target.relations.values.filter fun r => r.target.entity = source

/-- The source endpoint of the relation `r`, which stands at `name` in the entity `source`. -/
def sourceEndpoint (s : Schema) (source name : String) (r : Relation) :
    Except Error Endpoint :=
  match s.get? r.target.entity with
  | none => .error (.unknownEntity r.target.entity (source ++ "." ++ name))
  | some target =>
    if isEnumRelation r target then .ok ⟨source, "", .many⟩
    else
      match counterparts source target with
      | [c] => .ok c.target
      | [] => .error (.missingRelation source r.target.entity)
      | _ :: _ :: _ => .error (.ambiguousRelation source r.target.entity)

/-- A source endpoint that was found, for the relation at the key `relation` of the entity at the
key `entity`. -/
structure Found where
  entity : String
  relation : String
  source : Endpoint
deriving DecidableEq, Repr

def findSource (s : Schema) (entity : String) (relation : String × Relation) :
    Except Error Found :=
  (s.sourceEndpoint entity relation.1 relation.2).map (Found.mk entity relation.1)

/-- The source endpoints of all relations in the order of declaration, or the error of the first
relation that has none. -/
def findSources (s : Schema) : Except Error (List Found) := do
  let found ← s.entities.entries.mapM fun entity =>
    entity.2.relations.entries.mapM (s.findSource entity.1)
  return found.flatten

/-- Write a source endpoint over that of the relation it was found for. -/
def setSource (s : Schema) (x : Found) : Schema :=
  ⟨s.entities.modify x.entity fun e => { e with
    relations := e.relations.modify x.relation fun r => { r with source := x.source } }⟩

/-- Steps that change a schema and can fail. What they leave of it is there after an error as
well. -/
abbrev OnSchema := ExceptT Error (StateM Schema)

/-- Link all relations: first find what their sources are, and only then write them. -/
def linkRelations : OnSchema Unit := do
  let found ← (← get).findSources
  found.forM fun x => modify (·.setSource x)

/-- The outcome of linking, and the schema as it is afterwards. -/
def linking (s : Schema) : Except Error Unit × Schema := linkRelations.run.run s

/-- The linked schema, or the error. -/
def link (s : Schema) : Except Error Schema :=
  match s.linking with
  | (.ok (), t) => .ok t
  | (.error err, _) => .error err

end OrmGen.Schema
