/-
  Quoted scalars. Between single quotes only a doubled quote is special; between double
  quotes a backslash starts an escape. White space around the ends of lines is folded.
-/
import OrmGen.Json.Literal
import OrmGen.Yaml.Folding

namespace OrmGen.Yaml.Quoted

open Json.Literal (hexDigit?)

/-- The character that a backslash and `c` stand for. -/
def escape? (c : Char) : Option Char :=
  [('0', '\x00'), ('a', '\x07'), ('b', '\x08'), ('t', '\t'), ('\t', '\t'), ('n', '\n'),
    ('v', '\x0b'), ('f', '\x0c'), ('r', '\r'), ('e', '\x1b'), (' ', ' '), ('"', '"'), ('/', '/'),
    ('\\', '\\'), ('N', Char.ofNat 0x85), ('_', Char.ofNat 0xA0), ('L', Char.ofNat 0x2028),
    ('P', Char.ofNat 0x2029)].lookup c

/-- How many hexadecimal digits follow a backslash and `c`. -/
def codeLength? (c : Char) : Option Nat := [('x', 2), ('u', 4), ('U', 8)].lookup c

/-- The value of hexadecimal digits. -/
def hexValue? (cs : List Char) : Option Nat :=
  cs.foldlM (fun n c => (hexDigit? c).map (16 * n + ·)) 0

/-- The character with a number, which must not be a surrogate. -/
def charOf? (n : Nat) : Option Char :=
  if (0xD800 ≤ n && n ≤ 0xDFFF) || 0x10FFFF < n then none else some (Char.ofNat n)

/-- A part of a scalar without white space, up to white space or the closing quote. -/
structure Run where
  text : List Char
  length : Nat
  /-- The part ends with a backslash at the end of a line. -/
  continued : Bool

/-- Add text that `length` characters of the source spell. -/
def Run.add (r : Run) (text : List Char) (length : Nat) : Run :=
  { r with text := text ++ r.text, length := r.length + length }

/-- A run between single quotes. -/
def singleRun : List Char → Run
  | '\'' :: '\'' :: cs => (singleRun cs).add ['\''] 2
  | c :: cs =>
    if isSpaceOrTab c || isBreak c || c = '\'' then ⟨[], 0, false⟩ else (singleRun cs).add [c] 1
  | [] => ⟨[], 0, false⟩

/-- A run between double quotes. -/
def doubleRun? : Nat → List Char → Option Run
  | 0, _ => none
  | _, [] => some ⟨[], 0, false⟩
  | fuel + 1, c :: cs =>
    if isSpaceOrTab c || isBreak c || c = '"' then some ⟨[], 0, false⟩
    else if c = '\\' then
      match cs with
      | [] => none
      | e :: rest =>
        if isBreak e then some ⟨[], 1, true⟩
        else
          match escape? e, codeLength? e with
          | some x, _ => (doubleRun? fuel rest).map (·.add [x] 2)
          | none, some n =>
            let digits := rest.take n
            if digits.length < n then none
            else
              match (hexValue? digits).bind charOf? with
              | some x => (doubleRun? fuel (rest.drop n)).map (·.add [x] (2 + n))
              | none => none
          | none, none => none
    else (doubleRun? fuel cs).map (·.add [c] 1)

/-- Read what follows the opening quote, up to and with the closing one. -/
def read? (isSingle : Bool) : Nat → Cursor → Option (List Char × Cursor)
  | 0, _ => none
  | fuel + 1, c =>
    if c.atDocumentMark || c.rest = [] then none
    else
      match if isSingle then some (singleRun c.rest) else doubleRun? (fuel + 1) c.rest with
      | none => none
      | some run =>
        let after := c.advanceBy run.length
        let after := if run.continued then after.skipBreak else after
        if after.next (· = if isSingle then '\'' else '"') then some (run.text, after.advance)
        else
          match Gap.read? 0 fuel after { broken := run.continued } with
          | none => none
          | some (gap, c) =>
            (read? isSingle fuel c).map fun (text, c) => (run.text ++ gap.text ++ text, c)

end OrmGen.Yaml.Quoted
