/-
  The classes of an entity. An enumeration becomes a class of constants. An entity becomes a
  base class with all its properties, a final class that extends it, and a repository; the
  last two are scaffolds for code written by hand.

  Only base classes of entities claim associations, so only `buildEntity` and `build` carry
  claims along.
-/
import OrmGen.Mapping.Reference
import OrmGen.Php.ClassText

namespace OrmGen.Mapping

open Php (Property Import)

def ormImport : String := "Doctrine\\ORM\\Mapping as ORM"

def collectionImports : List String := [
  "Doctrine\\Common\\Collections\\ArrayCollection", "Doctrine\\Common\\Collections\\Collection"]

def repositoryImports : List String := [
  "Doctrine\\Bundle\\DoctrineBundle\\Repository\\ServiceEntityRepository",
  "Symfony\\Bridge\\Doctrine\\RegistryInterface"]

/-- The class that every repository extends. -/
def repositoryParent : String := "ServiceEntityRepository"

/-- An entity has to be of the kind that a class is built for. -/
def expectKind (e : Entity) (kind : EntityKind) : Except Error Unit :=
  if e.kind = kind then .ok () else .error (.unexpectedKind e.name e.kind)

/-- Add constants, up to the first repeated name. -/
def addConstants (c : Php.Class) : List Field → Except Error Php.Class
  | [] => .ok c
  | f :: fs => do addConstants (← c.addProperty (.constant f.name "int" f.value)) fs

/-- The class of an enumeration. -/
def buildEnum (config : Config) (e : Entity) : Except Error Php.Class := do
  expectKind e .enumeration
  addConstants (.generated e.name config.enumNamespace) e.fields.values

/-- The name of the base class of an entity. -/
def baseName (config : Config) (e : Entity) : String := e.name ++ config.classPostfix.entity

/-- The name of the repository of an entity. -/
def repositoryName (config : Config) (e : Entity) : String :=
  e.name ++ config.classPostfix.repository

/-- Whether an entity has a relation to many others. -/
def hasCollections (e : Entity) : Bool :=
  e.relations.values.any fun r =>
    r.target.cardinality ≠ .enumeration && r.target.cardinality.isMany

/-- The imports of a base class that do not come from one of its members. -/
def baseImports (config : Config) (e : Entity) : List String :=
  ormImport :: (if hasCollections e then collectionImports else []) ++ config.imports

/-- The identifier that every entity has. -/
def identifier : Property :=
  .member "id" "int|null" none
    ["@ORM\\Id()", "@ORM\\GeneratedValue()", "@ORM\\Column(type=\"integer\")"]

/-- The base class of an entity before its members are added. -/
def baseClass (config : Config) (e : Entity) : Except Error Php.Class := do
  let c := Php.Class.generated (baseName config e) config.baseNamespace
  let imports ← c.imports.addAll (baseImports config e)
  return { c with imports := imports, annotations := ["@ORM\\MappedSuperclass()"] }
    |>.putProperty identifier

/-- The base class of an entity with its fields, before its relations are added. -/
def baseWithFields (config : Config) (e : Entity) : Except Error Php.Class := do
  expectKind e .entity
  addFields config e.name (← baseClass config e) e.fields.values

/-- The base class of an entity. -/
def buildEntity (config : Config) (claims : Claims) (e : Entity) :
    Except Error Php.Class × Claims :=
  match baseWithFields config e with
  | .error err => (.error err, claims)
  | .ok c => addRelations config e.name claims c e.relations.values

/-- The class of an enumeration, or the base class of an entity. -/
def build (config : Config) (claims : Claims) (e : Entity) : Except Error Php.Class × Claims :=
  match e.kind with
  | .enumeration => (buildEnum config e, claims)
  | .entity => buildEntity config claims e

/-- The final class of an entity, which extends its base class under a name of its own. -/
def buildFinal (config : Config) (e : Entity) : Except Error Php.Class := do
  expectKind e .entity
  let parentName := e.name ++ "Generated"
  let repository := joinNamespace [config.repositoryNamespace, repositoryName config e]
  let c := Php.Class.scaffold e.name config.entityNamespace
  let imports ← c.imports.add ormImport
  let base := joinNamespace [config.baseNamespace, baseName config e]
  let imports ← imports.register ⟨base, parentName⟩
  return { c with
    imports := imports
    annotations := ["@ORM\\Entity(repositoryClass=\"" ++ repository ++ "\")"]
    parent := some parentName }

/-- The constructor of a repository. -/
def repositoryBody (e : Entity) : String :=
  "\n".intercalate <| Php.indent [
    "public function __construct(RegistryInterface $registry)",
    "\x7b",
    Php.indentation ++ "parent::__construct($registry, " ++ e.name ++ "::class);",
    "\x7d"]

/-- The repository of an entity. -/
def buildRepository (config : Config) (e : Entity) : Except Error Php.Class := do
  expectKind e .entity
  let c := Php.Class.scaffold (repositoryName config e) config.repositoryNamespace
  let imports ← c.imports.addAll
    (repositoryImports ++ [joinNamespace [config.entityNamespace, e.name]])
  return { c with
    imports := imports
    parent := some repositoryParent
    body := some (repositoryBody e) }

end OrmGen.Mapping
