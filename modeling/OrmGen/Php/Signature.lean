/-
  Type hints for declared types. A declared type is a union, members separated by bars; an
  accessor can carry one hint, so most unions are left to the doc comment.
-/
import OrmGen.Text.Blank

namespace OrmGen.Php

/-- What a type hint can say of a declared type. -/
inductive Signature where
  /-- All of it. -/
  | exact (hint : String)
  /-- Something wider. -/
  | collapsed (hint : String)
  /-- Nothing. -/
  | untyped
deriving DecidableEq, Repr

namespace Signature

/-- The members of a declared type, without white space, empty ones and repetitions. -/
def members (declared : String) : List String :=
  let parts := (declared.toList.splitOn '|').map fun m =>
    String.ofList (Text.stripBy Text.isBlank m)
  (parts.filter (· ≠ "")).eraseDups

/-- Whether a member is an array type. -/
def isArray (member : String) : Bool := "[]".toList.isSuffixOf member.toList

/-- The signature of a declared type. A null among the members is the question mark of the
hint, and leaves no hint for a union of two others. -/
def ofDeclared (declared : String) : Signature :=
  let nullable := (members declared).contains "null"
  let mark := if nullable then "?" else ""
  match (members declared).filter (· ≠ "null") with
  | [m] => if isArray m then .collapsed (mark ++ "array") else .exact (mark ++ m)
  | [m, n] => if !nullable && isArray m != isArray n then .collapsed "iterable" else .untyped
  | _ => .untyped

def hint? : Signature → Option String
  | .exact hint | .collapsed hint => some hint
  | .untyped => none

/-- Whether the declared type has to be spelled out in a doc comment. -/
def needsDoc : Signature → Bool
  | .exact _ => false
  | .collapsed _ | .untyped => true

end Signature
end OrmGen.Php
