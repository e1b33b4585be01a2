/-
  Visibility of a field: a keyword, and the symbol that stands for it in a diagram.
-/
import OrmGen.Text.Blank
import OrmGen.Text.Upper

namespace OrmGen

/-- Who may see a field. -/
inductive Visibility where
  | everyone
  | subclasses
  | self
deriving DecidableEq, Repr

namespace Visibility

/-- The visibility that a keyword or a symbol names, in any case and with white space
around it. -/
def parse? (s : String) : Option Visibility :=
  let word := Text.lowerAscii (Text.trim s)
  if word = "public" || word = "+" then some .everyone
  else if word = "protected" || word = "#" then some .subclasses
  else if word = "private" || word = "-" then some .self
  else none

def keyword : Visibility → String
  | .everyone => "public"
  | .subclasses => "protected"
  | .self => "private"

def symbol : Visibility → String
  | .everyone => "+"
  | .subclasses => "#"
  | .self => "-"

end Visibility
end OrmGen
