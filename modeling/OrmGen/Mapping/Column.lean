/-
  Columns: the property that a field becomes, with the annotation that maps it.
-/
import OrmGen.Config
import OrmGen.Php.Class
import OrmGen.Php.Type

namespace OrmGen.Mapping

open Php (Property)

/-- The keys of a definition that are settings of the field. All others are passed through
to the annotation. -/
def ownKeys : List String :=
  ["type", "size", "nullable", "modifier", "value", "target", "relation"]

/-- The text of a value that is passed through: a string as it is, all else as JSON. -/
def attributeText : Json → String
  | .string s => s
  | v => v.text

/-- The attributes that a definition passes through. -/
def passedThrough (f : Field) : List (String × String) :=
  match f.raw with
  | none => []
  | some raw =>
    (raw.members.filter fun m => !ownKeys.contains m.1).map fun m => (m.1, attributeText m.2)

/-- The attribute for a size: digits of a number, or characters of a text. -/
def sizeKey (typeName : String) : String :=
  if typeName = "decimal" || typeName = "float" then "precision" else "length"

/-- The attributes of a field's column. -/
def columnAttributes (f : Field) : List (String × String) :=
  let type :=
    if f.isEnumReference then [("type", "\"integer\"")]
    else
      ("type", Json.Literal.encode f.typeName)
        :: (f.size.map fun n => (sizeKey f.typeName, Text.ofCount n)).toList
        ++ passedThrough f
  type ++ if f.nullable then [("nullable", "true")] else []

/-- An annotation with attributes. -/
def columnTag (attributes : List (String × String)) : String :=
  "@ORM\\Column(" ++ ", ".intercalate (attributes.map fun a => a.1 ++ "=" ++ a.2) ++ ")"

/-- The annotation that points at an enumeration. -/
def enumTag (name : String) : String := "@see " ++ name

/-- The type of a field's property, before null is added to it. -/
def propertyType (f : Field) : String :=
  if f.isEnumReference then "int" else Php.typeOf f.typeName

/-- The literal that a field's property starts with: the declared value, or the zero value
of a type that cannot be null. -/
def propertyDefault (f : Field) : Option String :=
  match f.isEnumReference, f.value with
  | false, some v => some (Php.literal (propertyType f) v)
  | _, _ => if f.nullable then none else Php.zeroValue? (propertyType f)

/-- The type with null added for a field that may be null. -/
def nullableType (f : Field) (type : String) : String :=
  if f.nullable then type ++ "|null" else type

/-- The enumeration that a field refers to, if it refers to one and names it. -/
def enumTarget? (f : Field) : Option String := if f.isEnumReference then f.value else none

/-- The property of a field. -/
def fieldProperty (f : Field) : Property :=
  .member f.name (nullableType f (propertyType f)) (propertyDefault f)
    (columnTag (columnAttributes f) :: ((enumTarget? f).map enumTag).toList)

/-- Import the enumeration that a field refers to. A reference must name one. -/
def importEnum (config : Config) (entity : String) (f : Field) (c : Php.Class) :
    Except Error Php.Class :=
  if f.isEnumReference then
    match f.value with
    | none => .error (.missingProperty entity f.name "target")
    | some name => c.addImport (joinNamespace [config.enumNamespace, name])
  else .ok c

/-- Add the property of a field to a class. -/
def addField (config : Config) (entity : String) (c : Php.Class) (f : Field) :
    Except Error Php.Class := do
  (← importEnum config entity f c).addProperty (fieldProperty f)

/-- Add the properties of fields, up to the first error. -/
def addFields (config : Config) (entity : String) (c : Php.Class) :
    List Field → Except Error Php.Class
  | [] => .ok c
  | f :: fs => do addFields config entity (← addField config entity c f) fs

end OrmGen.Mapping
