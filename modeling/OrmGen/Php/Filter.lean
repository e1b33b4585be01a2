/-
  Filters for text that ends up in a class. Literals and names keep only harmless
  characters; annotations lose every `*/`, so that none closes its doc comment.
-/
import OrmGen.Text.Blank

namespace OrmGen.Php

def isLetterOrDigit (c : Char) : Bool := c.isAlphanum

/-- The characters that a literal may hold. -/
def isLiteralChar (c : Char) : Bool :=
  isLetterOrDigit c || Text.isBlank c || ['\\', '.', '(', ')', '[', ']', ',', '"'].contains c

/-- The characters that the name of a parent class may hold. -/
def isParentChar (c : Char) : Bool := isLetterOrDigit c || c = '\\'

/-- The characters that a statement of an import may hold. -/
def isImportChar (c : Char) : Bool := isLetterOrDigit c || c = '\\' || Text.isBlank c

/-- The characters of `s` that satisfy `p`. -/
def keep (p : Char → Bool) (s : String) : String := String.ofList (s.toList.filter p)

/-- A literal reduced to the characters it may hold; `null` if none is left. -/
def sanitizeLiteral (s : String) : String :=
  let kept := keep isLiteralChar s
  if kept = "" then "null" else kept

/-- One sweep from left to right that deletes each `*/` it meets. -/
def dropClosers : List Char → List Char
  | '*' :: '/' :: cs => dropClosers cs
  | c :: cs => c :: dropClosers cs
  | [] => []

/-- Sweep until a sweep deletes nothing. -/
def withoutClosers (cs : List Char) : List Char :=
  if (dropClosers cs).length < cs.length then withoutClosers (dropClosers cs) else cs
termination_by cs.length

/-- An annotation without any `*/`. -/
def sanitizeTag (s : String) : String := String.ofList (withoutClosers s.toList)

end OrmGen.Php
