/-
  References: the property that a relation becomes. A relation of enum cardinality is a
  column of integers; any other is an association, whose annotation names the property at
  the other end and the side that this end is.
-/
import OrmGen.Mapping.Association
import OrmGen.Mapping.Column

namespace OrmGen.Mapping

open Php (Property)

/-- The class that a relation refers to, as an import. -/
def importOf (config : Config) (r : Relation) : String :=
  if r.target.cardinality = .enumeration then
    joinNamespace [config.enumNamespace, r.target.entity]
  else joinNamespace [config.entityNamespace, r.target.entity]

/-- The property of a relation to an enumeration. -/
def enumProperty (r : Relation) : Property :=
  .member r.target.name "int|null" none
    ["@ORM\\Column(type=\"integer\", nullable=true)", enumTag r.target.entity]

/-- The annotation of an association. -/
def associationTag (a : Association) (side : Side) (r : Relation) : String :=
  "@ORM\\" ++ a.name ++ "(targetEntity=\"" ++ r.target.entity ++ "\", " ++ side.attribute
    ++ "=\"" ++ r.source.name ++ "\")"

/-- The property of an association: a collection that starts empty, or an entity or null. -/
def associationProperty (a : Association) (side : Side) (r : Relation) : Property :=
  let annotations := [associationTag a side r]
  if r.target.cardinality.isMany then
    .member r.target.name (r.target.entity ++ "[]|Collection") (some "new ArrayCollection()")
      annotations
  else .member r.target.name (r.target.entity ++ "|null") none annotations

/-- The property of a relation, and the claims once it is built. -/
def relationProperty (entity : String) (claims : Claims) (r : Relation) :
    Except Error Property × Claims :=
  if r.target.cardinality = .enumeration then (.ok (enumProperty r), claims)
  else
    match Association.ofCardinalities? r.source.cardinality r.target.cardinality with
    | none => (.error (.unsupportedAssociation entity r.source r.target), claims)
    | some a =>
      let (side, claims) := a.side claims r
      (.ok (associationProperty a side r), claims)

/-- Add the property of a relation to a class. Claims made before an error stay. -/
def addRelation (config : Config) (entity : String) (claims : Claims) (c : Php.Class)
    (r : Relation) : Except Error Php.Class × Claims :=
  match c.addImport (importOf config r) with
  | .error e => (.error e, claims)
  | .ok c =>
    let (p, claims) := relationProperty entity claims r
    (p.bind c.addProperty, claims)

/-- Add the properties of relations, up to the first error. -/
def addRelations (config : Config) (entity : String) (claims : Claims) (c : Php.Class) :
    List Relation → Except Error Php.Class × Claims
  | [] => (.ok c, claims)
  | r :: rs =>
    match addRelation config entity claims c r with
    | (.error e, claims) => (.error e, claims)
    | (.ok c, claims) => addRelations config entity claims c rs

end OrmGen.Mapping
