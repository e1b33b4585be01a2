/-
  What can go wrong between reading a schema and writing its classes. Each constructor is a
  cause with the names it concerns; `Error.message` is the only place that words it.
-/
import OrmGen.Json.Text
import OrmGen.Schema
import OrmGen.Text.Quoted

namespace OrmGen

/-- What a property of a field may be. -/
inductive ScalarForm where
  | text
  | positiveInteger
  | boolean
deriving DecidableEq, Repr

/-- What a part of a configuration may be. -/
inductive ConfigForm where
  | text
  | sequence
  | namespaces
  | classPostfix
deriving DecidableEq, Repr

inductive Error where
  | missingProperty (entity field property : String)
  | mixedMembers (entity field : String)
  | badScalar (entity field property : String) (wanted : ScalarForm) (found : Json)
  | badCardinality (entity field : String) (found : Json)
  | badVisibility (entity field : String) (found : Json)
  | entitiesNotMapping
  | entityNotMapping (entity : String)
  | unknownEntity (entity referencedBy : String)
  | missingConfig (path : String)
  | missingRelation (entity target : String)
  | ambiguousRelation (entity target : String)
  | incompatibleRelation (line : String)
  | unsupportedAssociation (entity : String) (source target : Endpoint)
  | importConflict (name existing requested : String)
  | duplicateProperty (className property : String)
  | unexpectedKind (entity : String) (kind : EntityKind)
  | yamlNotRead
  | jsonNotRead
  | badConfig (wanted : ConfigForm) (found : Json)
  | configTooLong (length : Nat)
  | disk (path : String)
deriving DecidableEq

def ScalarForm.wording : ScalarForm → String
  | .text => "a string"
  | .positiveInteger => "a positive integer"
  | .boolean => "a boolean"

def ConfigForm.wording : ConfigForm → String
  | .text => "a string"
  | .sequence => "a sequence"
  | .namespaces => "struct Namespaces"
  | .classPostfix => "struct ClassPostfix"

/-- A found value in the words of a message: its kind, and its text if that is short. -/
def Json.described : Json → String
  | .null => "null"
  | .bool b => "boolean `" ++ (if b then "true" else "false") ++ "`"
  | .number (.integer n) => "integer `" ++ toString n ++ "`"
  | .number (.float x) => "floating point `" ++ floatText x ++ "`"
  | .string s => "string " ++ Text.quoted s
  | .array _ => "sequence"
  | .object _ => "map"

/-- The wording of an error. -/
def Error.message : Error → String
  | .missingProperty entity field property =>
    "The property `" ++ property ++ "` of `" ++ entity ++ "." ++ field
      ++ "` is required but missing!"
  | .mixedMembers entity field =>
    "Invalid configuration in `" ++ entity ++ "." ++ field
      ++ "`, enum and entity mixes are not allowed!"
  | .badScalar entity field property wanted found =>
    "Invalid value for `" ++ entity ++ "." ++ field ++ "`: `" ++ property ++ "` must be "
      ++ wanted.wording ++ ", got " ++ found.text
  | .badCardinality entity field found =>
    "Unknown relation cardinality `" ++ found.text ++ "` in `" ++ entity ++ "." ++ field ++ "`"
  | .badVisibility entity field found =>
    "Unknown modifier `" ++ found.text ++ "` in `" ++ entity ++ "." ++ field ++ "`"
  | .entitiesNotMapping => "Invalid schema: `entities` must be a mapping of entity names"
  | .entityNotMapping entity =>
    "Invalid schema: entity `" ++ entity ++ "` must be a mapping of fields"
  | .unknownEntity entity referencedBy =>
    "Unknown entity `" ++ entity ++ "` referenced from `" ++ referencedBy ++ "`"
  | .missingConfig path => "The path `" ++ path ++ "` is missing in the configuration!"
  | .missingRelation entity target =>
    "Missing relation `" ++ target ++ "` -> `" ++ entity ++ "`!"
  | .ambiguousRelation entity target =>
    "Ambiguous relation `" ++ target ++ "` -> `" ++ entity
      ++ "`: more than one inverse relation is not supported!"
  | .incompatibleRelation line => "Incompatible relation `" ++ line ++ "`!"
  | .unsupportedAssociation entity source target =>
    "Unexpected relation `" ++ source.text ++ " -> " ++ target.text ++ "` on `" ++ entity ++ "`!"
  | .importConflict name existing requested =>
    "Import conflict for `" ++ name ++ "`: `" ++ existing
      ++ "` is already imported, cannot import `" ++ requested ++ "`!"
  | .duplicateProperty className property =>
    "Duplicate property `" ++ property ++ "` in class `" ++ className ++ "`!"
  | .unexpectedKind entity kind =>
    "Unexpected entity type `" ++ kind.text ++ "` for `" ++ entity ++ "`!"
  | .yamlNotRead => "YAML error: the document is not well formed"
  | .jsonNotRead => "JSON error: the document is not well formed"
  | .badConfig wanted found =>
    "JSON error: invalid type: " ++ found.described ++ ", expected " ++ wanted.wording
  | .configTooLong length =>
    "JSON error: invalid length " ++ toString length ++ ", expected fewer elements in array"
  | .disk path => "I/O error on `" ++ path ++ "`"

end OrmGen
