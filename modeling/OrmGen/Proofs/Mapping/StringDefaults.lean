/-
  Defaults that are strings. A field of type `string` has its value quoted, a member of an
  enumeration keeps a string as JSON text; either way the class shows the filtered literal for
  the string (`assignment?_of_string`, `constantHead_of_string`).

  It is one string in quotes, and decodes to the string without the characters that do not
  survive the filter (`string_defaults_are_faithful`).
-/
import OrmGen.Proofs.Mapping.Members
import OrmGen.Proofs.Php.Literal
import OrmGen.Proofs.Php.Quoting

namespace OrmGen.Mapping

open Json.Literal (encode encodeChar decode?)
open Schema (enumMember)
open Php (IsBody assignmentLine constantLine keep sanitizeLiteral survives)

variable {f : Field} {v : String}

theorem propertyDefault_of_string (htype : propertyType f = "string") (hvalue : f.value = some v) :
    propertyDefault f = some (encode v) := by
  have henum : f.isEnumReference = false := by
    by_contra hreference
    unfold propertyType at htype
    rw [if_pos (by simpa using hreference)] at htype
    exact absurd htype (by decide)
  rw [propertyDefault_of_value henum hvalue]
  exact congrArg some (if_pos htype)

/-- What the constructor assigns to the property of a field of type `string`. -/
theorem assignment?_of_string (htype : propertyType f = "string") (hvalue : f.value = some v) :
    (fieldProperty f).assignment? = some (assignmentLine f.name (encode (keep survives v))) := by
  show (propertyDefault f).map (fun d => assignmentLine f.name (sanitizeLiteral d)) = _
  rw [propertyDefault_of_string htype hvalue, Option.map_some, Php.sanitizeLiteral_encode]

/-- The line of the constant for a member of an enumeration that is a string. -/
theorem constantHead_of_string (name v : String) :
    Php.indentation ++ (constantOf (enumMember name (.string v))).constantHead =
      constantLine name (encode (keep survives v)) := by
  show constantLine name (sanitizeLiteral (encode v)) = _
  rw [Php.sanitizeLiteral_encode]

/-- A default that is a string is written as one string: between two quotes stand characters
other than quotes and backslashes, and backslashes with a character behind each. Read as a
JSON string it is the default without the characters that do not survive the filter. -/
theorem string_defaults_are_faithful (v : String) : ∃ (t : String) (body : List Char),
    (∀ f : Field, propertyType f = "string" → f.value = some v →
      (fieldProperty f).assignment? = some (assignmentLine f.name t)) ∧
    (∀ name : String, Php.indentation ++ (constantOf (enumMember name (.string v))).constantHead =
      constantLine name t) ∧
    t.toList = '"' :: body ++ ['"'] ∧ IsBody body ∧
    decode? (body ++ ['"']) = some (keep survives v, []) := by
  refine ⟨encode (keep survives v), (keep survives v).toList.flatMap encodeChar,
    fun _ => assignment?_of_string, fun name => constantHead_of_string name v, ?_,
    Php.isBody_encode _, ?_⟩
  · exact String.toList_ofList
  · rw [Json.Literal.decode?_encode, String.ofList_toList]

/-- A text of all kinds of characters as a default of a field and as a member of an
enumeration. -/
theorem mixed_string_default : ∃ (t : String) (body : List Char),
    (fieldProperty ⟨"note", "text", false, none, .everyone, some "a\"b\\-c\n\x01;",
      none⟩).assignment? = some (assignmentLine "note" t) ∧
    t.toList = '"' :: body ++ ['"'] ∧ IsBody body ∧
    decode? (body ++ ['"']) = some ("a\"b\\c\n\x01", []) := by
  obtain ⟨t, body, hfield, _, hquotes, hbody, hdecodes⟩ :=
    string_defaults_are_faithful "a\"b\\-c\n\x01;"
  exact ⟨t, body, hfield _ (by decide) rfl, hquotes, hbody, hdecodes.trans (by decide)⟩

end OrmGen.Mapping
