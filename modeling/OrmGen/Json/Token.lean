/-
  The tokens of a JSON text. White space is the space, the tab, the line feed and the
  carriage return. A run of letters, digits and signs is one word; which words are numbers
  or literal names is decided afterwards, and so is whether a string spells a text.
-/
import OrmGen.Json.Literal

namespace OrmGen.Json

/-- A token: a mark of structure, a string in pieces, or a word. -/
inductive Token where
  | openArray
  | closeArray
  | openObject
  | closeObject
  | comma
  | colon
  | string (pieces : List Literal.Piece)
  | word (cs : List Char)

namespace Token

def isSpace (c : Char) : Bool := c = ' ' || c = '\t' || c = '\n' || c = '\r'

/-- The characters of words. -/
def isWordChar (c : Char) : Bool := c.isAlphanum || c = '+' || c = '-' || c = '.'

/-- The mark of structure that a character is. -/
def ofMark? (c : Char) : Option Token :=
  match c with
  | '[' => some .openArray
  | ']' => some .closeArray
  | '\x7b' => some .openObject
  | '\x7d' => some .closeObject
  | ',' => some .comma
  | ':' => some .colon
  | _ => none

/-- The tokens of a text, unless it holds a character or a literal that is no token. -/
def list? : List Char → Option (List Token)
  | [] => some []
  | c :: cs =>
    if isSpace c then list? cs
    else
      match ofMark? c with
      | some t => (list? cs).map (t :: ·)
      | none =>
        if c = '"' then
          match _h : Literal.pieces? cs with
          | none => none
          | some (ps, rest) => (list? rest).map (.string ps :: ·)
        else if isWordChar c then
          (list? (cs.dropWhile isWordChar)).map (.word (c :: cs.takeWhile isWordChar) :: ·)
        else none
termination_by cs => cs.length
decreasing_by
  · simp
  · simp
  · have := Literal.pieces?_length _h
    simp; omega
  · have : (cs.dropWhile isWordChar).length ≤ cs.length := (List.dropWhile_suffix _).length_le
    simp; omega

end Token
end OrmGen.Json
