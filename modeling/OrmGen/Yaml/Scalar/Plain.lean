/-
  Plain scalars: text without quotes. One ends at a colon before white space, at a comment
  after white space, at a mark between documents, in a block at a line that is not indented
  deeper, and inside brackets at a comma or a bracket.
-/
import OrmGen.Yaml.Folding

namespace OrmGen.Yaml.Plain

/-- Whether a character ends a scalar inside brackets. -/
def isFlowMark (c : Char) : Bool := [',', '[', ']', '\x7b', '\x7d'].contains c

/-- One run of text without white space. Inside brackets a colon before a mark is an error. -/
def run? (inFlow : Bool) : List Char → Option (List Char)
  | [] => some []
  | c :: cs =>
    let next := cs.head?
    if isSpaceOrTab c || isBreak c then some []
    else if inFlow && c = ':' && next.any (fun x => isFlowMark x || x = '?') then none
    else if c = ':' && Cursor.endsWord next then some []
    else if inFlow && isFlowMark c then some []
    else (run? inFlow cs).map (c :: ·)

/-- The text, the place after it, and whether an end of line stands in between. -/
structure Result where
  text : List Char
  cursor : Cursor
  broken : Bool

/-- Read runs of text with the gaps between them, after a gap. -/
def read? (inFlow : Bool) (indent : Int) : Nat → Cursor → Gap → Option Result
  | 0, _, _ => none
  | fuel + 1, c, gap =>
    if c.atDocumentMark || c.next (· = '#') then some ⟨[], c, gap.broken⟩
    else
      match run? inFlow c.rest with
      | none => none
      | some run =>
        let after := c.advanceBy run.length
        let (text, gap) := if run = [] then ([], gap) else (gap.text ++ run, {})
        if after.atSpaceOrTab || after.atBreak then
          match gap.read? indent fuel after with
          | none => none
          | some (gap, c) =>
            if !inFlow && (c.column : Int) < indent then some ⟨text, c, gap.broken⟩
            else (read? inFlow indent fuel c gap).map fun r => { r with text := text ++ r.text }
        else some ⟨text, after, gap.broken⟩

end OrmGen.Yaml.Plain
