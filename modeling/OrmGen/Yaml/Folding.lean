/-
  Line folding. Between two lines of a scalar one end of a line becomes a space and further
  ones stay; spaces and tabs around the ends of lines are dropped.
-/
import OrmGen.Yaml.Cursor

namespace OrmGen.Yaml

/-- White space in front of more text: spaces and tabs of a line, or the first end of a line
and the ones after it. -/
structure Gap where
  spaces : List Char := []
  firstBreak : List Char := []
  moreBreaks : List Char := []
  broken : Bool := false

namespace Gap

/-- What a gap reads as. -/
def text (g : Gap) : List Char :=
  if g.broken then
    if g.firstBreak = ['\n'] then
      if g.moreBreaks = [] then [' '] else g.moreBreaks
    else g.firstBreak ++ g.moreBreaks
  else g.spaces

/-- Add the end of a line. -/
def addBreak (g : Gap) (b : List Char) : Gap :=
  if g.broken then { g with moreBreaks := g.moreBreaks ++ b }
  else { g with spaces := [], firstBreak := b, broken := true }

/-- Read all white space from here. A tab to the left of column `indent` in a later line is
an error. -/
def read? (indent : Int) : Nat → Cursor → Gap → Option (Gap × Cursor)
  | 0, c, g => some (g, c)
  | fuel + 1, c, g =>
    match c.peek? with
    | none => some (g, c)
    | some x =>
      if isSpaceOrTab x then
        if g.broken && (c.column : Int) < indent && x = '\t' then none
        else if g.broken then read? indent fuel c.advance g
        else read? indent fuel c.advance { g with spaces := g.spaces ++ [x] }
      else if isBreak x then read? indent fuel c.skipBreak (g.addBreak c.takeBreak.1)
      else some (g, c)

end Gap
end OrmGen.Yaml
