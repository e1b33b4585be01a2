/-
  A whole run in memory: from a configuration to the files to be written, the directory that
  is emptied first, and the diagram. Entities are taken in the order of declaration, so that
  the owner of an association stays the same from run to run.
-/
import OrmGen.Diagram
import OrmGen.Mapping.Build
import OrmGen.Php.Location
import OrmGen.Schema.Declaration
import OrmGen.Schema.Linking

namespace OrmGen

open Mapping (Claims)

/-- What happens to a file that exists already. -/
inductive WriteMode where
  /-- It is written anew. -/
  | regenerate
  /-- It is kept. -/
  | createIfMissing
deriving DecidableEq, Repr

def WriteMode.text : WriteMode → String
  | .regenerate => "Regenerate"
  | .createIfMissing => "CreateIfMissing"

/-- A file to be written, at a path below the application root. -/
structure OutputFile where
  path : String
  contents : String
  mode : WriteMode
deriving DecidableEq, Repr

/-- The outcome of a run. -/
structure Generation where
  files : List OutputFile
  generatedDirectory : String
  diagram : String
deriving DecidableEq, Repr

namespace Generation

/-- The file of a class. -/
def fileOf (config : Config) (mode : WriteMode) (c : Php.Class) : OutputFile where
  path := Php.classPath config.appNamespace c.ns c.name
  contents := c.text
  mode := mode

/-- The scaffolds of an entity; an enumeration has none. -/
def scaffoldsOf (config : Config) (e : Entity) : Except Error (List Php.Class) :=
  match e.kind with
  | .enumeration => .ok []
  | .entity => do
    let final ← Mapping.buildFinal config e
    let repository ← Mapping.buildRepository config e
    return [final, repository]

/-- The files of an entity, and the claims once they are built. -/
def filesOf (config : Config) (claims : Claims) (e : Entity) :
    Except Error (List OutputFile) × Claims :=
  let (c, claims) := Mapping.build config claims e
  let files := do
    let c ← c
    let scaffolds ← scaffoldsOf config e
    return fileOf config .regenerate c :: scaffolds.map (fileOf config .createIfMissing)
  (files, claims)

/-- The files of entities, up to the first error. -/
def filesOfAll (config : Config) (claims : Claims) : List Entity → Except Error (List OutputFile)
  | [] => .ok []
  | e :: es =>
    match filesOf config claims e with
    | (.error err, _) => .error err
    | (.ok files, claims) => (filesOfAll config claims es).map (files ++ ·)

/-- The linked schema that a configuration declares. -/
def schemaOf (config : Config) : Except Error Schema := do
  (← Schema.ofDeclarations config.entities).link

/-- Run a configuration. -/
def ofConfig (config : Config) : Except Error Generation := do
  let schema ← schemaOf config
  let files ← filesOfAll config .none schema.entities.values
  let diagram ← Diagram.ofSchema schema
  return {
    files := files
    generatedDirectory := Php.namespaceDirectory config.appNamespace config.baseNamespace
    diagram := diagram }

def regenerated (g : Generation) : List OutputFile := g.files.filter (·.mode = .regenerate)

def scaffolds (g : Generation) : List OutputFile := g.files.filter (·.mode = .createIfMissing)

end Generation
end OrmGen
