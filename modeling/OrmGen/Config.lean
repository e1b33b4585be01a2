/-
  The configuration of a run: the declarations of the entities, the namespaces of the
  generated classes, what is added to their names, and imports for every entity class.

  `Config.ofJson` checks the members in the order in which they stand and reports the first
  fault. A group of settings may also be an array of its settings in order, of which the
  last ones may be left out.
-/
import OrmGen.Error
import OrmGen.Json.Reader

namespace OrmGen

/-- Namespaces of the generated classes; `app` is the root of the others. -/
structure Namespaces where
  app : String := "App"
  base : String := "Generated"
  enumeration : String := "Enum"
  entity : String := "Entity"
  repository : String := "Repository"
deriving DecidableEq, Repr

/-- What is added to an entity's name to name its base class and its repository. -/
structure ClassPostfix where
  entity : String := "Generated"
  repository : String := "Repository"
deriving DecidableEq, Repr

structure Config where
  entities : Json
  namespaces : Namespaces := {}
  classPostfix : ClassPostfix := {}
  imports : List String := []
deriving DecidableEq

/-- Namespace segments joined by backslashes. A segment counts without the backslashes at
its ends, and not at all if nothing else is left. -/
def joinNamespace (segments : List String) : String :=
  let trimmed := segments.map fun s => String.ofList (Text.stripBy (· = '\\') s.toList)
  "\\".intercalate (trimmed.filter (· ≠ ""))

namespace Config

def appNamespace (c : Config) : String := c.namespaces.app

/-- Namespace of the entity classes that are written by hand. -/
def entityNamespace (c : Config) : String := joinNamespace [c.namespaces.app, c.namespaces.entity]

/-- Namespace of the base classes that are generated anew on every run. -/
def baseNamespace (c : Config) : String :=
  joinNamespace [c.namespaces.app, c.namespaces.entity, c.namespaces.base]

def enumNamespace (c : Config) : String :=
  joinNamespace [c.namespaces.app, c.namespaces.enumeration]

def repositoryNamespace (c : Config) : String :=
  joinNamespace [c.namespaces.app, c.namespaces.repository]

/-! ## Reading -/

/-- A setting that has to be a text. -/
def readText : Json → Except Error String
  | .string s => .ok s
  | v => .error (.badConfig .text v)

/-- Apply one setting after another to a group of settings. -/
def readMembers {α : Type} (set : α → String → Json → Except Error α) :
    α → List (String × Json) → Except Error α
  | a, [] => .ok a
  | a, (k, v) :: ms =>
    match set a k v with
    | .error e => .error e
    | .ok a => readMembers set a ms

/-- A group of settings: an object, or an array of the settings named in `order`. -/
def readGroup {α : Type} (default : α) (wanted : ConfigForm) (order : List String)
    (set : α → String → Json → Except Error α) : Json → Except Error α
  | .object members => readMembers set default members
  | .array items =>
    match readMembers set default (order.zip items) with
    | .error e => .error e
    | .ok a => if items.length ≤ order.length then .ok a else .error (.configTooLong items.length)
  | v => .error (.badConfig wanted v)

def setNamespace (n : Namespaces) (key : String) (v : Json) : Except Error Namespaces :=
  match key with
  | "app" => (readText v).map fun s => { n with app := s }
  | "base" => (readText v).map fun s => { n with base := s }
  | "enum" => (readText v).map fun s => { n with enumeration := s }
  | "entity" => (readText v).map fun s => { n with entity := s }
  | "repository" => (readText v).map fun s => { n with repository := s }
  | _ => .ok n

def setClassPostfix (p : ClassPostfix) (key : String) (v : Json) : Except Error ClassPostfix :=
  match key with
  | "entity" => (readText v).map fun s => { p with entity := s }
  | "repository" => (readText v).map fun s => { p with repository := s }
  | _ => .ok p

def readTexts : List Json → Except Error (List String)
  | [] => .ok []
  | v :: vs =>
    match readText v with
    | .error e => .error e
    | .ok s => (readTexts vs).map (s :: ·)

def readImports : Json → Except Error (List String)
  | .array items => readTexts items
  | v => .error (.badConfig .sequence v)

def readNamespaces : Json → Except Error Namespaces :=
  readGroup {} .namespaces ["app", "base", "enum", "entity", "repository"] setNamespace

def readClassPostfix : Json → Except Error ClassPostfix :=
  readGroup {} .classPostfix ["entity", "repository"] setClassPostfix

def setMember (c : Config) (key : String) (v : Json) : Except Error Config :=
  match key with
  | "entities" => .ok { c with entities := v }
  | "namespace" => (readNamespaces v).map fun n => { c with namespaces := n }
  | "classPostfix" => (readClassPostfix v).map fun p => { c with classPostfix := p }
  | "imports" => (readImports v).map fun is => { c with imports := is }
  | _ => .ok c

/-- The configuration that a value describes. It must be an object, and so must its member
`entities`. -/
def ofJson : Json → Except Error Config
  | .object members =>
    match Json.member? "entities" members with
    | some (.object es) => readMembers setMember { entities := .object es } members
    | _ => .error (.missingConfig "entities")
  | _ => .error (.missingConfig "entities")

/-- The configuration as a JSON object with all its settings. -/
def toJson (c : Config) : Json := .object [
  ("entities", c.entities),
  ("namespace", .object [
    ("app", .string c.namespaces.app), ("base", .string c.namespaces.base),
    ("enum", .string c.namespaces.enumeration), ("entity", .string c.namespaces.entity),
    ("repository", .string c.namespaces.repository)]),
  ("classPostfix", .object [
    ("entity", .string c.classPostfix.entity),
    ("repository", .string c.classPostfix.repository)]),
  ("imports", .array (c.imports.map .string))]

/-- The configuration in a JSON text. -/
def ofJsonText (s : String) : Except Error Config :=
  match Json.read? s with
  | none => .error .jsonNotRead
  | some v => ofJson v

end Config
end OrmGen
