/-
  JSON values as text: no white space, members in order, strings as literals.
-/
import OrmGen.Json.Literal
import OrmGen.Json.Number

namespace OrmGen.Json

mutual

/-- The compact text of a value. -/
def text : Json → String
  | .null => "null"
  | .bool true => "true"
  | .bool false => "false"
  | .number n => n.text
  | .string s => Literal.encode s
  | .array items => "[" ++ itemsText items ++ "]"
  | .object members => "\x7b" ++ membersText members ++ "\x7d"

/-- Values separated by commas. -/
def itemsText : List Json → String
  | [] => ""
  | [v] => text v
  | v :: w :: vs => text v ++ "," ++ itemsText (w :: vs)

/-- Members separated by commas. -/
def membersText : List (String × Json) → String
  | [] => ""
  | [(k, v)] => Literal.encode k ++ ":" ++ text v
  | (k, v) :: m :: ms => Literal.encode k ++ ":" ++ text v ++ "," ++ membersText (m :: ms)

end

end OrmGen.Json
