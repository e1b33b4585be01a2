/-
  Class diagrams of a schema: a block per entity, then a line per relation. Both ends of a
  relation, and all references of an entity to one enumeration, share one line; the ends of
  a line stand in the order of their entities' names.
-/
import OrmGen.Error
import OrmGen.Json.Reader

namespace OrmGen.Diagram

/-- The shown value of an enumeration member: JSON text in its compact form, strings without
quotes, and any other text as it is. -/
def memberValue (value : Option String) : String :=
  let raw := value.getD "null"
  match Json.read? raw with
  | some (.string s) => s
  | some v => v.text
  | none => raw

def enumMemberLine (f : Field) : String :=
  "  " ++ Text.upperCase f.name ++ " = " ++ memberValue f.value

/-- The mark before a line of a class block. -/
def mark (kind : String) : String := "  \x7b" ++ kind ++ "\x7d"

def fieldLine (f : Field) : String :=
  let (kind, type) :=
    if f.isEnumReference then ("method", f.value.getD "") else ("field", f.typeName)
  let size := match f.size with
    | some n => if 0 < n then "(" ++ Text.ofCount n ++ ")" else ""
    | none => ""
  let name := f.name ++ if f.nullable then " [null]" else ""
  mark kind ++ f.visibility.symbol ++ type ++ size ++ " " ++ name

def relationMember (r : Relation) : String :=
  let many := if r.target.cardinality.isMany then "[]" else ""
  mark "method" ++ "#" ++ r.target.entity ++ many ++ " " ++ r.target.name

/-- The block of an entity. -/
def block (e : Entity) : List String :=
  let relations := e.relations.values.map relationMember
  let (keyword, members) := match e.kind with
    | .enumeration => ("enum", e.fields.values.map enumMemberLine)
    | .entity => ("class", (mark "field" ++ "+integer id") :: e.fields.values.map fieldLine)
  (keyword ++ " " ++ e.name ++ " \x7b") :: members ++ relations ++ ["\x7d", ""]

/-- An end of a line: an entity and how many of them there are. -/
abbrev End := String × Cardinality

/-- A line between two ends. -/
def line (a b : End) : String :=
  let (first, second) := if b.1 < a.1 then (b, a) else (a, b)
  first.1 ++ " \"" ++ first.2.marker ++ "\" -up- \"" ++ second.2.marker ++ "\" " ++ second.1

def relationLine (r : Relation) : String :=
  line (r.source.entity, r.source.cardinality) (r.target.entity, r.target.cardinality)

/-- The enumeration that a field names, or nothing. -/
def enumName (f : Field) : String := f.value.getD ""

def enumLine (entity : String) (f : Field) : String :=
  line (entity, .many) (enumName f, .one)

/-- Lines under the names of what they show. -/
abbrev Lines := OrderedMap String

/-- Add the line of a relation. A line that stands under its name already must be the same. -/
def addRelation (lines : Lines) (r : Relation) : Except Error Lines :=
  let new := relationLine r
  if (lines.get? r.pairId).any (· ≠ new) then .error (.incompatibleRelation new)
  else .ok (lines.insert r.pairId new)

def addRelations (lines : Lines) : List Relation → Except Error Lines
  | [] => .ok lines
  | r :: rs => do addRelations (← addRelation lines r) rs

/-- Add the line of a reference to an enumeration. -/
def addEnum (entity : String) (lines : Lines) (f : Field) : Lines :=
  lines.insert (entity ++ "." ++ enumName f ++ " [enum]") (enumLine entity f)

/-- Add the lines of an entity: those of its relations, then those of its fields. -/
def addEntity (lines : Lines) (e : Entity) : Except Error Lines := do
  let lines ← addRelations lines e.relations.values
  return (e.fields.values.filter Field.isEnumReference).foldl (addEnum e.name) lines

def addEntities (lines : Lines) : List Entity → Except Error Lines
  | [] => .ok lines
  | e :: es => do addEntities (← addEntity lines e) es

/-- The lines of all relations, each once, in the order in which they first appear. -/
def relationLines (s : Schema) : Except Error (List String) := do
  return (← addEntities .empty s.entities.values).values.eraseDups

/-- The diagram of a schema, unless two declarations of a relation disagree. -/
def ofSchema (s : Schema) : Except Error String := do
  let relations ← relationLines s
  return "\n".intercalate <|
    ["@startuml", "", "title Entities", "", ""] ++ s.entities.values.flatMap block
      ++ ["", ""] ++ relations ++ ["", "@enduml"]

end OrmGen.Diagram
