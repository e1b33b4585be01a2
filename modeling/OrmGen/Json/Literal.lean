/-
  String literals of JSON. `encode` writes a text between quotes: a quote, a backslash and
  the characters below U+0020 are escaped, all else stands as it is. `decode?` reads the
  part after the opening quote and returns what follows the closing one. `pieces?` takes it
  apart by the grammar, with every escape of the format; `text?` joins the pieces, where an
  escaped surrogate counts only together with its other half.
-/
namespace OrmGen.Json.Literal

/-- The digits of a byte as two lower-case hexadecimal digits. -/
def hexByte (n : Nat) : List Char := [(n / 16).digitChar, (n % 16).digitChar]

/-- One character inside a literal. -/
def encodeChar (c : Char) : List Char :=
  if c = '"' then ['\\', '"']
  else if c = '\\' then ['\\', '\\']
  else if c = '\x08' then ['\\', 'b']
  else if c = '\t' then ['\\', 't']
  else if c = '\n' then ['\\', 'n']
  else if c = '\x0c' then ['\\', 'f']
  else if c = '\r' then ['\\', 'r']
  else if c.toNat < 0x20 then '\\' :: 'u' :: '0' :: '0' :: hexByte c.toNat
  else [c]

/-- A literal for the text, quotes included. -/
def encode (s : String) : String :=
  String.ofList ('"' :: s.toList.flatMap encodeChar ++ ['"'])

/-- The value of a hexadecimal digit. -/
def hexDigit? (c : Char) : Option Nat :=
  if '0' ≤ c && c ≤ '9' then some (c.toNat - '0'.toNat)
  else if 'a' ≤ c && c ≤ 'f' then some (c.toNat - 'a'.toNat + 10)
  else if 'A' ≤ c && c ≤ 'F' then some (c.toNat - 'A'.toNat + 10)
  else none

/-- The value of four hexadecimal digits. -/
def hex4? (a b c d : Char) : Option Nat := do
  let a ← hexDigit? a
  let b ← hexDigit? b
  let c ← hexDigit? c
  let d ← hexDigit? d
  return ((a * 16 + b) * 16 + c) * 16 + d

/-- The character that a backslash and `c` stand for. -/
def shortEscape? (c : Char) : Option Char :=
  match c with
  | '"' => some '"'
  | '\\' => some '\\'
  | '/' => some '/'
  | 'b' => some '\x08'
  | 'f' => some '\x0c'
  | 'n' => some '\n'
  | 'r' => some '\r'
  | 't' => some '\t'
  | _ => none

/-- A piece of a literal: a character, or a 16-bit unit given by its number. -/
inductive Piece where
  | char (c : Char)
  | unit (n : Nat)

/-- The pieces up to the closing quote, and what follows it. -/
def pieces? : List Char → Option (List Piece × List Char)
  | [] => none
  | '"' :: rest => some ([], rest)
  | '\\' :: 'u' :: a :: b :: c :: d :: rest =>
    match hex4? a b c d, pieces? rest with
    | some n, some (ps, rest) => some (.unit n :: ps, rest)
    | _, _ => none
  | '\\' :: c :: rest =>
    match shortEscape? c, pieces? rest with
    | some c, some (ps, rest) => some (.char c :: ps, rest)
    | _, _ => none
  | c :: rest =>
    if c.toNat < 0x20 || c = '\\' then none
    else (pieces? rest).map fun (ps, rest) => (.char c :: ps, rest)

/-- The characters that the pieces spell: two surrogates in a row are one character, any
other surrogate is an error. -/
def join? : List Piece → Option (List Char)
  | [] => some []
  | .char c :: ps => (join? ps).map (c :: ·)
  | .unit n :: .unit m :: ps =>
    if 0xD800 ≤ n && n < 0xDC00 then
      if 0xDC00 ≤ m && m < 0xE000 then
        (join? ps).map (Char.ofNat (0x10000 + (n - 0xD800) * 0x400 + (m - 0xDC00)) :: ·)
      else none
    else if 0xDC00 ≤ n && n < 0xE000 then none
    else (join? (.unit m :: ps)).map (Char.ofNat n :: ·)
  | .unit n :: ps =>
    if 0xD800 ≤ n && n < 0xE000 then none else (join? ps).map (Char.ofNat n :: ·)

/-- The text that the pieces spell. -/
def text? (ps : List Piece) : Option String := (join? ps).map String.ofList

/-- The text of a literal whose opening quote has been read, and what follows it. -/
def decode? (cs : List Char) : Option (String × List Char) :=
  (pieces? cs).bind fun (ps, rest) => (text? ps).map fun s => (s, rest)

theorem pieces?_length {cs rest : List Char} {ps : List Piece}
    (h : pieces? cs = some (ps, rest)) : rest.length < cs.length := by
  fun_induction pieces? cs generalizing ps with
  | case1 => cases h
  | case2 => simp at h; simp [h]
  | case3 a b c d r n ps' r' hr hn ih =>
    cases h
    have := ih hr
    simp only [List.length_cons]; omega
  | case4 => cases h
  | case5 c r hnu c' ps' r' hr hc ih =>
    cases h
    have := ih hr
    simp only [List.length_cons]; omega
  | case6 => cases h
  | case7 => cases h
  | case8 c r h1 h2 h3 hc ih =>
    obtain ⟨p, hp, hq⟩ := Option.map_eq_some_iff.1 h
    cases hq
    have := ih hp
    simp only [List.length_cons]; omega

end OrmGen.Json.Literal
