/-
  Types of schema fields and what they become in a class: the type in doc comments, the
  value a property starts with, and the literal for a declared value.
-/
import OrmGen.Json.Text
import OrmGen.Text.Upper

namespace OrmGen.Php

/-- The type names of schemas with a type of their own; any other name stands for itself. -/
def typeNames : List (String × String) := [
  ("integer", "int"), ("smallint", "int"), ("bigint", "string"), ("boolean", "bool"),
  ("decimal", "float"), ("float", "float"), ("string", "string"), ("text", "string"),
  ("guid", "string"), ("date", "\\DateTime"), ("datetime", "\\DateTime"),
  ("time", "\\DateTime"), ("json", "array"), ("array", "array"), ("simple_array", "array")]

/-- The type of a schema field. -/
def typeOf (typeName : String) : String := (typeNames.lookup typeName).getD typeName

/-- The literal that a property of a type starts with, if the type has one. -/
def zeroValue? (type : String) : Option String :=
  [("int", "0"), ("float", "0.0"), ("string", "\"\""), ("bool", "false"),
    ("\\DateTime", "new \\DateTime()"), ("array", "[]")].lookup type

/-- The literal for a declared value: quoted for strings, in lower case for booleans, and
otherwise the value as it stands. -/
def literal (type value : String) : String :=
  if type = "string" then Json.Literal.encode value
  else if type = "bool" then Text.lowerAscii value
  else value

end OrmGen.Php
