/-
  Classes as text, line by line: the namespace, the imports, the doc comment, and between
  braces the constants, the properties, the constructor, the accessors and the body.

  The text is a function of the class alone. Names of members are written as they are; a
  constant is written in upper case, an accessor is named by the capitalised property.
-/
import OrmGen.Php.Class
import OrmGen.Php.Filter
import OrmGen.Php.Signature
import OrmGen.Text.Upper

namespace OrmGen.Php

/-- One level of indentation. -/
def indentation : String := "    "

/-- Every line that is not empty, one level deeper. -/
def indent (lines : List String) : List String :=
  lines.map fun l => if l = "" then l else indentation ++ l

/-- A line inside a doc comment; none is the empty line between two parts. -/
def docLine : Option String → String
  | some s => " * " ++ s
  | none => " *"

/-- A doc comment. -/
def docComment (lines : List (Option String)) : List String :=
  "/**" :: lines.map docLine ++ [" */"]

def accessorSuffix (name : String) : String := Text.capitalize name

def constantName (name : String) : String := Text.upperCase name

/-- The first line of the doc comment of a class that is generated anew on every run. -/
def bannerText : String := "This class was generated automatically, do not modify it here!"

namespace Class

/-- The import statements, without those for symbols of the class's own namespace. -/
def importStatements (c : Class) : List String :=
  (c.imports.imports.filter fun i => i.namespacePart ≠ c.ns).map fun i =>
    keep isImportChar i.statement

def importLines (c : Class) : List String :=
  c.importStatements.map fun s => "use " ++ s ++ ";"

/-- The clause that names the parent, with a leading space; empty without one. -/
def parentClause (c : Class) : String :=
  let parent := keep isParentChar (c.parent.getD "")
  if parent = "" then "" else " extends " ++ parent

def annotationLines (annotations : List String) : List (Option String) :=
  annotations.map fun a => some (sanitizeTag a)

/-- The doc comment of the class, if there is anything to say. -/
def docLines (c : Class) : List String :=
  let banner := if c.banner then [some bannerText] else []
  let annotations := annotationLines c.annotations
  if banner = [] && annotations = [] then []
  else if banner = [] || annotations = [] then docComment (banner ++ annotations)
  else docComment (banner ++ none :: annotations)

/-- The line that opens the class. -/
def openingLine (c : Class) : String :=
  let modifiers := " ".intercalate c.modifiers
  (if modifiers = "" then "" else modifiers ++ " ") ++ "class " ++ c.name ++ c.parentClause

end Class

namespace Property

/-- The doc comment of a constant or a property. -/
def docLines (p : Property) : List String :=
  let annotations := Class.annotationLines p.annotations
  let type := some ("@var " ++ p.typeName)
  docComment (if annotations = [] then [type] else annotations ++ [none, type])

def constantLines (p : Property) : List String :=
  p.docLines ++ [
    "const " ++ constantName p.name ++ " = " ++ sanitizeLiteral (p.default.getD "") ++ ";", ""]

def declarationLines (p : Property) : List String :=
  p.docLines ++ ["protected $" ++ p.name ++ ";", ""]

def signature (p : Property) : Signature := .ofDeclared p.typeName

/-- A doc comment with one line, for a type that no hint expresses. -/
def typeDoc (p : Property) (line : String) : List String :=
  if p.signature.needsDoc then docComment [some line] else []

def getterLines (p : Property) : List String :=
  let result := match p.signature.hint? with
    | some hint => ": " ++ hint
    | none => ""
  p.typeDoc ("@return " ++ p.typeName) ++ [
    "public function get" ++ accessorSuffix p.name ++ "()" ++ result,
    "\x7b",
    indentation ++ "return $this->" ++ p.name ++ ";",
    "\x7d",
    ""]

def setterLines (p : Property) : List String :=
  let type := match p.signature.hint? with
    | some hint => hint ++ " "
    | none => ""
  p.typeDoc ("@param " ++ p.typeName ++ " $" ++ p.name) ++ [
    "public function set" ++ accessorSuffix p.name ++ "(" ++ type ++ "$" ++ p.name ++ "): void",
    "\x7b",
    indentation ++ "$this->" ++ p.name ++ " = $" ++ p.name ++ ";",
    "\x7d",
    ""]

/-- The line of the constructor that gives a property its default, if it has one. -/
def assignment? (p : Property) : Option String :=
  p.default.map fun d =>
    indentation ++ "$this->" ++ p.name ++ " = " ++ sanitizeLiteral d ++ ";"

end Property

namespace Class

/-- The constructor, if a property has a default. -/
def constructorLines (c : Class) : List String :=
  match c.members.filterMap Property.assignment? with
  | [] => []
  | lines => "public function __construct()" :: "\x7b" :: lines ++ ["\x7d", ""]

/-- All generated lines between the braces. -/
def memberLines (c : Class) : List String :=
  indent (c.constants.flatMap Property.constantLines)
    ++ indent (c.members.flatMap Property.declarationLines)
    ++ indent c.constructorLines
    ++ indent (c.members.flatMap fun p => p.getterLines ++ p.setterLines)

/-- The body that follows the generated lines, unless it is empty. -/
def bodyLines (c : Class) : List String := (c.body.filter (· ≠ "")).toList

/-- The lines without an empty last one. -/
def dropLastBlank (lines : List String) : List String :=
  if lines.getLast? = some "" then lines.dropLast else lines

def lines (c : Class) : List String :=
  ["<?php", "", "namespace " ++ c.ns ++ ";", ""] ++ c.importLines ++ [""] ++ c.docLines
    ++ [c.openingLine, "\x7b"] ++ dropLastBlank (c.memberLines ++ c.bodyLines) ++ ["\x7d", ""]

/-- The text of a class. -/
def text (c : Class) : String := "\n".intercalate c.lines

end Class
end OrmGen.Php
