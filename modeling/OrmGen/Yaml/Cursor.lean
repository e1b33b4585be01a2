/-
  A place in a YAML text: what is left of it, and how far it has been read. A place on a line
  is counted in characters, the length of a piece of text in bytes of UTF-8. A line
  ends with a carriage return, a line feed, both in that order, or one of the characters
  U+0085, U+2028 and U+2029; the last two stay as they are, every other end is read as a line
  feed. Past the end of the text nothing stands, which counts as the end of a line.
-/
namespace OrmGen.Yaml

/-- The characters that a text may hold. -/
def isAllowed (c : Char) : Bool :=
  let n := c.toNat
  n == 0x09 || n == 0x0A || n == 0x0D || (0x20 ≤ n && n ≤ 0x7E) || n == 0x85
    || (0xA0 ≤ n && n ≤ 0xD7FF) || (0xE000 ≤ n && n ≤ 0xFFFD) || 0x10000 ≤ n

def isSpaceOrTab (c : Char) : Bool := c = ' ' || c = '\t'

def isBreak (c : Char) : Bool :=
  c = '\r' || c = '\n' || c.toNat = 0x85 || c.toNat = 0x2028 || c.toNat = 0x2029

/-- The characters of anchors, tag handles and directive names. -/
def isNameChar (c : Char) : Bool := c.isAlphanum || c = '_' || c = '-'

/-- A place in a text. -/
structure Cursor where
  rest : List Char
  /-- The number of bytes in front of it. -/
  offset : Nat
  line : Nat
  column : Nat

namespace Cursor

def start (cs : List Char) : Cursor := ⟨cs, 0, 0, 0⟩

def peek? (c : Cursor) : Option Char := c.rest.head?

/-- The character `n` places on. -/
def peekAt? (c : Cursor) (n : Nat) : Option Char := c.rest[n]?

/-- Whether the next character is there and satisfies `p`. -/
def next (c : Cursor) (p : Char → Bool) : Bool := c.peek?.any p

def atBreak (c : Cursor) : Bool := c.next isBreak

def atSpaceOrTab (c : Cursor) : Bool := c.next isSpaceOrTab

/-- Whether `x` is the end of a line or of the text. -/
def endsLine (x : Option Char) : Bool := x.all isBreak

/-- Whether `x` is a space, a tab, or the end of a line or of the text. -/
def endsWord (x : Option Char) : Bool := x.all fun c => isSpaceOrTab c || isBreak c

/-- The number of bytes that characters take up. -/
def byteCount (cs : List Char) : Nat := cs.foldl (fun n c => n + c.utf8Size) 0

/-- Move on by `n` characters of the same line. -/
def advanceBy (c : Cursor) (n : Nat) : Cursor :=
  ⟨c.rest.drop n, c.offset + byteCount (c.rest.take n), c.line, c.column + n⟩

/-- Move on by one character of the same line. -/
def advance (c : Cursor) : Cursor := c.advanceBy 1

/-- Move past the characters of the line that satisfy `p`, and return them. -/
def takeWhile (c : Cursor) (p : Char → Bool) : List Char × Cursor :=
  let taken := c.rest.takeWhile fun x => p x && !isBreak x
  (taken, c.advanceBy taken.length)

def skipWhile (c : Cursor) (p : Char → Bool) : Cursor := (c.takeWhile p).2

/-- Move past the end of a line, and return how it reads. Elsewhere nothing happens. -/
def takeBreak (c : Cursor) : List Char × Cursor :=
  match c.rest with
  | '\r' :: '\n' :: cs => (['\n'], ⟨cs, c.offset + 2, c.line + 1, 0⟩)
  | x :: cs =>
    if isBreak x then
      let read := if x.toNat = 0x2028 || x.toNat = 0x2029 then x else '\n'
      ([read], ⟨cs, c.offset + x.utf8Size, c.line + 1, 0⟩)
    else ([], c)
  | [] => ([], c)

def skipBreak (c : Cursor) : Cursor := c.takeBreak.2

/-- Move past spaces, tabs and a comment. -/
def skipToLineEnd (c : Cursor) : Cursor :=
  let c := c.skipWhile isSpaceOrTab
  if c.next (· = '#') then c.skipWhile fun _ => true else c

/-- Whether a line starts here with three dashes or three dots that stand alone. -/
def atDocumentMark (c : Cursor) : Bool :=
  c.column = 0 && endsWord (c.peekAt? 3)
    && (c.rest.take 3 = ['-', '-', '-'] || c.rest.take 3 = ['.', '.', '.'])

/-- Fuel for loops that move on in every round. -/
def fuel (c : Cursor) : Nat := c.rest.length + 1

end Cursor
end OrmGen.Yaml
