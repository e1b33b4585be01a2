/-
  Block scalars: indented lines after `|`, which keeps the ends of lines, or `>`, which folds
  them. A header says how the ends of lines at the end are treated and how deep the text is
  indented, unless its first line shows that.
-/
import OrmGen.Yaml.Cursor

namespace OrmGen.Yaml.Block

/-- What becomes of the ends of lines at the end of the text. -/
inductive Chomping where
  | strip
  | clip
  | keep
deriving DecidableEq

/-- The header of a block scalar. -/
structure Header where
  chomping : Chomping
  increment : Option Nat

def chomping? : Option Char → Option Chomping
  | some '+' => some .keep
  | some '-' => some .strip
  | _ => none

/-- The header after the mark: an indentation from 1 to 9 and a chomping mark, in any
order. -/
def header? (c : Cursor) : Option (Header × Cursor) :=
  let digit? := fun (c : Cursor) => c.peek?.bind fun x =>
    if x.isDigit then some (x.toNat - '0'.toNat) else none
  match chomping? c.peek?, digit? c with
  | some ch, _ =>
    let c := c.advance
    match digit? c with
    | some 0 => none
    | some n => some (⟨ch, some n⟩, c.advance)
    | none => some (⟨ch, none⟩, c)
  | none, some 0 => none
  | none, some n =>
    let c := c.advance
    match chomping? c.peek? with
    | some ch => some (⟨ch, some n⟩, c.advance)
    | none => some (⟨.clip, some n⟩, c)
  | none, none => some (⟨.clip, none⟩, c)

/-- Read empty lines and the indentation of the line after them: the ends of lines, the
deepest indentation met, and the place. A tab in the indentation is an error. -/
def blankLines? (indent : Option Nat) :
    Nat → Cursor → List Char → Nat → Option (List Char × Nat × Cursor)
  | 0, _, _, _ => none
  | fuel + 1, c, breaks, deepest =>
    let within := fun (c : Cursor) => indent.all (c.column < ·)
    let spaces := (c.rest.takeWhile (· = ' ')).length
    let c := c.advanceBy (match indent with
      | some n => min spaces (n - c.column)
      | none => spaces)
    let deepest := max deepest c.column
    if within c && c.next (· = '\t') then none
    else if c.atBreak then blankLines? indent fuel c.skipBreak (breaks ++ c.takeBreak.1) deepest
    else some (breaks, deepest, c)

/-- The ends of lines between two lines of text. -/
structure Joint where
  firstBreak : List Char := []
  moreBreaks : List Char := []
  /-- The line before starts with a space or a tab. -/
  spaced : Bool := false

/-- What a joint reads as. A single end of line is folded into a space, unless one of the two
lines starts with white space. -/
def Joint.text (j : Joint) (literal spaced : Bool) : List Char :=
  if !literal && j.firstBreak = ['\n'] && !j.spaced && !spaced then
    if j.moreBreaks = [] then [' '] else j.moreBreaks
  else j.firstBreak ++ j.moreBreaks

/-- Read the lines that are indented by `indent`, after a joint. The result has the joint
after the last line. -/
def lines? (literal : Bool) (indent : Nat) :
    Nat → Cursor → Joint → Option (List Char × Joint × Cursor)
  | 0, _, _ => none
  | fuel + 1, c, j =>
    if c.column = indent && c.rest ≠ [] then
      let (line, c) := c.takeWhile fun _ => true
      let spaced := line.head?.any isSpaceOrTab
      let (first, c) := c.takeBreak
      match blankLines? (some indent) fuel c [] 0 with
      | none => none
      | some (more, _, c) =>
        (lines? literal indent fuel c ⟨first, more, spaced⟩).map fun (text, r) =>
          (j.text literal spaced ++ line ++ text, r)
    else some ([], j, c)

/-- Read what follows the mark. `parent` is the indentation of the block around. -/
def read? (literal : Bool) (parent : Int) (fuel : Nat) (c : Cursor) :
    Option (List Char × Cursor) := do
  let (header, c) ← header? c
  let c := c.skipToLineEnd
  guard (Cursor.endsLine c.peek?)
  let c := c.skipBreak
  let given := header.increment.map fun n => (max parent 0).toNat + n
  let (breaks, deepest, c) ← blankLines? given fuel c [] 0
  let indent := given.getD (max deepest (max (parent + 1) 1).toNat)
  let (text, last, c) ← lines? literal indent fuel c { moreBreaks := breaks }
  let tail := match header.chomping with
    | .strip => []
    | .clip => last.firstBreak
    | .keep => last.firstBreak ++ last.moreBreaks
  return (text ++ tail, c)

end OrmGen.Yaml.Block
