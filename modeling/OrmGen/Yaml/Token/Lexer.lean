/-
  From a text to tokens. The one thing that cannot be told when it is met is a key without
  a question mark: its colon stands after it. So the place of each token that may be such
  a key is kept, one for every bracket around and one outside of them, and the colon puts the
  token of the key, and that of the mapping if it starts there, in front of it. A key of this
  kind stays on one line and has at most 1024 bytes.
-/
import OrmGen.Yaml.Anchor
import OrmGen.Yaml.Directive
import OrmGen.Yaml.Scalar.Block
import OrmGen.Yaml.Scalar.Plain
import OrmGen.Yaml.Scalar.Quoted

namespace OrmGen.Yaml

/-- Where something starts that may turn out to be a key. -/
structure Candidate where
  /-- The number of tokens before it. -/
  position : Nat
  place : Cursor
  /-- Nothing else can start here, so that a missing colon is an error. -/
  required : Bool

/-- What is left of a candidate when the text is read up to `c`: nothing if it stands on an
earlier line or too far back. -/
def Candidate.retain? (c : Cursor) : Option Candidate → Option (Option Candidate)
  | none => some none
  | some k =>
    if k.place.line < c.line || k.place.offset + 1024 < c.offset then
      if k.required then none else some none
    else some (some k)

/-- What has been read so far. -/
structure Lexer where
  cursor : Cursor
  tokens : Array Token := #[]
  /-- The columns of the open block collections, the innermost first. -/
  columns : List Nat := []
  candidate : Option Candidate := none
  /-- The candidates outside of each open bracket, the innermost first. -/
  outer : List (Option Candidate) := []
  /-- A key without a question mark, and in a block also an entry, may start here. -/
  startsAnew : Bool := true
  anchors : AnchorNumbers := []

namespace Lexer

/-- Whether the place is inside brackets, where columns have no meaning. -/
def inFlow (l : Lexer) : Bool := !l.outer.isEmpty

/-- The column of the innermost block collection, -1 if there is none. -/
def indent (l : Lexer) : Int :=
  match l.columns with
  | [] => -1
  | n :: _ => n

def push (l : Lexer) (t : Token) : Lexer := { l with tokens := l.tokens.push t }

/-- Add the token that the next `n` characters are. -/
def pushChars (l : Lexer) (t : Token) (n : Nat) : Lexer :=
  { l.push t with cursor := l.cursor.advanceBy n }

/-- Put a token in front of the one at `position`. -/
def insert (l : Lexer) (position : Nat) (t : Token) : Lexer :=
  { l with tokens := l.tokens.insertIdxIfInBounds position t }

/-! ## Blocks -/

/-- Close the block collections that stand to the right of `column`. -/
def closeBlocks (l : Lexer) (column : Int) : Lexer :=
  if l.inFlow then l
  else
    let closed := (l.columns.takeWhile fun (n : Nat) => column < n).length
    { l with
      tokens := l.tokens ++ Array.replicate closed .blockEnd
      columns := l.columns.drop closed }

/-- Open a block collection at `column`, unless one is open there. Its token stands in front
of the one at `position`. -/
def openBlock (l : Lexer) (column position : Nat) (t : Token) : Lexer :=
  if l.inFlow || (column : Int) ≤ l.indent then l
  else { l.insert position t with columns := column :: l.columns }

/-! ## Candidates -/

/-- Forget the candidate. -/
def dropCandidate? (l : Lexer) : Option Lexer :=
  if l.candidate.any Candidate.required then none else some { l with candidate := none }

/-- Make what starts here the candidate, if a key may start here. -/
def markCandidate? (l : Lexer) : Option Lexer :=
  if l.startsAnew then do
    let required := !l.inFlow && l.indent = l.cursor.column
    let l ← l.dropCandidate?
    return { l with candidate := some ⟨l.tokens.size, l.cursor, required⟩ }
  else some l

/-- Forget the candidates that can no longer be keys. -/
def dropStale? (l : Lexer) : Option Lexer := do
  let outer ← l.outer.mapM (Candidate.retain? l.cursor)
  return { l with candidate := ← Candidate.retain? l.cursor l.candidate, outer := outer }

/-! ## Between tokens -/

/-- Move on to the next token, past blanks, comments and ends of lines. In a block a key may
start on every new line, and no tab may stand where one may start. A byte order mark that
starts a line is passed over, yet takes up a column. -/
def skipBlank : Nat → Lexer → Lexer
  | 0, l => l
  | fuel + 1, l =>
    let c := l.cursor
    let c := if c.column = 0 && c.next (· = '\uFEFF') then c.advance else c
    let c := c.skipWhile fun x => x = ' ' || (x = '\t' && (l.inFlow || !l.startsAnew))
    let c := if c.next (· = '#') then c.skipWhile fun _ => true else c
    if c.atBreak then
      skipBlank fuel { l with cursor := c.skipBreak, startsAnew := l.startsAnew || !l.inFlow }
    else { l with cursor := c }

/-! ## One token -/

/-- Close all blocks, as every document ends. -/
def endDocument? (l : Lexer) : Option Lexer := do
  let l ← (l.closeBlocks (-1)).dropCandidate?
  return { l with startsAnew := false }

/-- Read a directive. -/
def directive? (fuel : Nat) (l : Lexer) : Option Lexer := do
  let l ← l.endDocument?
  let (token, c) ← Directive.read? fuel l.cursor
  return { l.push token with cursor := c }

/-- Read an opening bracket, which may itself start a key. -/
def openBracket? (l : Lexer) (t : Token) : Option Lexer := do
  let l ← l.markCandidate?
  return { l.pushChars t 1 with
    candidate := none, outer := l.candidate :: l.outer, startsAnew := true }

/-- Read a closing bracket. -/
def closeBracket? (l : Lexer) (t : Token) : Option Lexer := do
  let l ← l.dropCandidate?
  let l := match l.outer with
    | [] => l
    | k :: ks => { l with candidate := k, outer := ks }
  return { l.pushChars t 1 with startsAnew := false }

/-- Read a comma. -/
def comma? (l : Lexer) : Option Lexer := do
  let l ← l.dropCandidate?
  return { l.pushChars .comma 1 with startsAnew := true }

/-- In a block, check that an entry may start here and open the collection that it belongs
to. -/
def startEntry? (l : Lexer) (t : Token) : Option Lexer :=
  if l.inFlow then some l
  else if l.startsAnew then some (l.openBlock l.cursor.column l.tokens.size t)
  else none

/-- Read the dash of an entry. -/
def dash? (l : Lexer) : Option Lexer := do
  let l ← (← l.startEntry? .blockSequence).dropCandidate?
  return { l.pushChars .dash 1 with startsAnew := true }

/-- Read the question mark of a key. -/
def key? (l : Lexer) : Option Lexer := do
  let l ← (← l.startEntry? .blockMapping).dropCandidate?
  return { l.pushChars .key 1 with startsAnew := !l.inFlow }

/-- Read the colon of a value. A candidate for a key turns out to be one. -/
def value? (l : Lexer) : Option Lexer :=
  match l.candidate with
  | some k =>
    let l := (l.insert k.position .key).openBlock k.place.column k.position .blockMapping
    some { l.pushChars .value 1 with candidate := none, startsAnew := false }
  | none => do
    let l ← l.startEntry? .blockMapping
    return { l.pushChars .value 1 with startsAnew := !l.inFlow }

/-- The name after the sign of an anchor or an alias. -/
def name? (c : Cursor) : Option (String × Cursor) := do
  let (name, c) := c.advance.takeWhile isNameChar
  let ends := Cursor.endsWord c.peek?
    || c.next ['?', ':', ',', ']', '\x7d', '%', '@', Char.ofNat 0x60].contains
  guard (name ≠ [] && ends)
  return (String.ofList name, c)

/-- Read an anchor. -/
def anchor? (l : Lexer) : Option Lexer := do
  let l ← l.markCandidate?
  let (name, c) ← name? l.cursor
  return { l.push (.anchor l.anchors.length) with
    cursor := c, startsAnew := false, anchors := l.anchors.assign name }

/-- Read an alias, which must name an anchor before it. -/
def reference? (l : Lexer) : Option Lexer := do
  let l ← l.markCandidate?
  let (name, c) ← name? l.cursor
  return { l.push (.reference (← l.anchors.lookup name)) with cursor := c, startsAnew := false }

/-- Read a tag. -/
def tag? (fuel : Nat) (l : Lexer) : Option Lexer := do
  let l ← l.markCandidate?
  let (tag, c) ← TagName.read? l.inFlow fuel l.cursor
  return { l.push (.tag tag) with cursor := c, startsAnew := false }

/-- Read a block scalar. -/
def blockScalar? (fuel : Nat) (l : Lexer) (literal : Bool) : Option Lexer := do
  let l ← l.dropCandidate?
  let (text, c) ← Block.read? literal l.indent fuel l.cursor.advance
  return { l.push (.scalar (String.ofList text) false) with cursor := c, startsAnew := true }

/-- Read a quoted scalar. -/
def quotedScalar? (fuel : Nat) (l : Lexer) (isSingle : Bool) : Option Lexer := do
  let l ← l.markCandidate?
  let (text, c) ← Quoted.read? isSingle fuel l.cursor.advance
  return { l.push (.scalar (String.ofList text) false) with cursor := c, startsAnew := false }

/-- Read a plain scalar. -/
def plainScalar? (fuel : Nat) (l : Lexer) : Option Lexer := do
  let l ← l.markCandidate?
  let r ← Plain.read? l.inFlow (l.indent + 1) fuel l.cursor {}
  return { l.push (.scalar (String.ofList r.text) true) with
    cursor := r.cursor, startsAnew := r.broken }

/-- The characters that cannot start a plain scalar. -/
def isIndicator (c : Char) : Bool :=
  ['-', '?', ':', ',', '[', ']', '\x7b', '\x7d', '#', '&', '*', '!', '|', '>', '\'', '"', '%',
    '@', Char.ofNat 0x60].contains c

/-- Whether a plain scalar starts with `x` where `next` follows. -/
def startsPlain (inFlow : Bool) (x : Char) (next : Option Char) : Bool :=
  !(Cursor.endsWord (some x) || isIndicator x)
    || (x = '-' && !next.any isSpaceOrTab)
    || (!inFlow && (x = '?' || x = ':') && !Cursor.endsWord next)

/-- Read the token that starts with `x`. -/
def token? (fuel : Nat) (l : Lexer) (x : Char) : Option Lexer :=
  let next := l.cursor.peekAt? 1
  let alone := Cursor.endsWord next
  if l.cursor.column = 0 && x = '%' then l.directive? fuel
  else if l.cursor.atDocumentMark then do
    return (← l.endDocument?).pushChars (if x = '-' then .documentStart else .documentEnd) 3
  else if x = '[' then l.openBracket? .openSequence
  else if x = '\x7b' then l.openBracket? .openMapping
  else if x = ']' then l.closeBracket? .closeSequence
  else if x = '\x7d' then l.closeBracket? .closeMapping
  else if x = ',' then l.comma?
  else if x = '-' && alone then l.dash?
  else if x = '?' && (l.inFlow || alone) then l.key?
  else if x = ':' && (l.inFlow || alone) then l.value?
  else if x = '*' then l.reference?
  else if x = '&' then l.anchor?
  else if x = '!' then l.tag? fuel
  else if x = '|' && !l.inFlow then l.blockScalar? fuel true
  else if x = '>' && !l.inFlow then l.blockScalar? fuel false
  else if x = '\'' then l.quotedScalar? fuel true
  else if x = '"' then l.quotedScalar? fuel false
  else if startsPlain l.inFlow x next then l.plainScalar? fuel
  else none

/-- Read tokens up to the end of the text. Every loop in here moves on by a character in each
round, so the fuel for what is left of the text is enough for all of them. -/
def run? : Nat → Lexer → Option Lexer
  | 0, _ => none
  | fuel + 1, l => do
    let l ← (skipBlank (fuel + 1) l).dropStale?
    let l := l.closeBlocks l.cursor.column
    match l.cursor.peek? with
    | none => l.endDocument?
    | some x => run? fuel (← l.token? (fuel + 1) x)

end Lexer

/-- The tokens of a text. -/
def Token.ofText? (s : String) : Option (List Token) := do
  let cs := s.toList
  guard (cs.all isAllowed)
  let c := Cursor.start cs
  return (← Lexer.run? c.fuel { cursor := c }).tokens.toList

end OrmGen.Yaml
