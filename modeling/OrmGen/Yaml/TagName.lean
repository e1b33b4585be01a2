/-
  Tags as written: `!suffix`, `!handle!suffix`, or a whole tag between `!<` and `>`. A suffix
  is an address; in it a percent sign and two hexadecimal digits spell a byte, and the bytes of
  one UTF-8 character stand together. A byte zero ends a suffix.
-/
import OrmGen.Json.Literal
import OrmGen.Yaml.Cursor
import OrmGen.Yaml.Token

namespace OrmGen.Yaml.TagName

open Json.Literal (hexDigit?)

/-- The characters of an address that stand for themselves. -/
def isAddressChar (c : Char) : Bool :=
  isNameChar c || [';', '/', '?', ':', '@', '&', '=', '+', '$', '.', '!', '~', '*', '\'', '(',
    ')'].contains c

/-- The characters of an address that nothing but a blank or `>` ends. -/
def isWideAddressChar (c : Char) : Bool := isAddressChar c || [',', '[', ']'].contains c

/-- The byte that a percent sign and two digits spell. -/
def byte? : List Char → Option UInt8
  | '%' :: a :: b :: _ => do return UInt8.ofNat (16 * (← hexDigit? a) + (← hexDigit? b))
  | _ => none

/-- How many bytes a character has whose first one is `b`. -/
def width? (b : UInt8) : Option Nat :=
  if b < 0x80 then some 1
  else if 0xC0 ≤ b && b < 0xE0 then some 2
  else if 0xE0 ≤ b && b < 0xF0 then some 3
  else if 0xF0 ≤ b && b < 0xF8 then some 4
  else none

/-- The bytes of one character, each spelled with a percent sign. -/
def escaped? (cs : List Char) : Option (List UInt8) := do
  let first ← byte? cs
  let more ← (List.range ((← width? first) - 1)).mapM fun i => byte? (cs.drop (3 * (i + 1)))
  guard (more.all fun b => 0x80 ≤ b && b < 0xC0)
  return first :: more

/-- Read the characters of an address that satisfy `p`, and escaped ones. -/
def address? (p : Char → Bool) : Nat → Cursor → Option (List UInt8 × Cursor)
  | 0, _ => none
  | fuel + 1, c =>
    match c.peek? with
    | some '%' => do
      let bytes ← escaped? c.rest
      let (more, c) ← address? p fuel (c.advanceBy (3 * bytes.length))
      return (bytes ++ more, c)
    | some x =>
      if p x then do
        let (more, c) ← address? p fuel c.advance
        return (UInt8.ofNat x.toNat :: more, c)
      else some ([], c)
    | none => some ([], c)

/-- The bytes up to the first zero. -/
def untilZero (bytes : List UInt8) : List UInt8 := bytes.takeWhile (· ≠ 0)

/-- Read an address, which must not be empty. -/
def fullAddress? (p : Char → Bool) (fuel : Nat) (c : Cursor) : Option (List UInt8 × Cursor) := do
  let (bytes, c) ← address? p fuel c
  guard (bytes ≠ [])
  return (untilZero bytes, c)

/-- Read an exclamation mark, a name that may be empty, and a second mark if it follows. The
result says whether it does. -/
def handle? (c : Cursor) : Option (List Char × Bool × Cursor) := do
  guard (c.next (· = '!'))
  let (name, c) := c.advance.takeWhile isNameChar
  if c.next (· = '!') then return (name, true, c.advance) else return (name, false, c)

/-- The handle that encloses a name in exclamation marks. -/
def enclosed (name : List Char) : String := String.ofList ('!' :: name ++ ['!'])

/-- Read a tag as it stands in front of a node. A lone exclamation mark has an empty
handle. -/
def parts? (fuel : Nat) (c : Cursor) : Option (TagName × Cursor) := do
  if c.peekAt? 1 = some '<' then
    let (suffix, c) ← fullAddress? isWideAddressChar fuel (c.advanceBy 2)
    guard (c.next (· = '>'))
    return (⟨"", suffix⟩, c.advance)
  else
    let (name, isClosed, c) ← handle? c
    if isClosed then
      let (suffix, c) ← fullAddress? isAddressChar fuel c
      return (⟨enclosed name, suffix⟩, c)
    else
      let (bytes, c) ← address? isAddressChar fuel c
      let suffix := untilZero ((String.ofList name).toUTF8.toList ++ bytes)
      return (if suffix = [] then ⟨"", [0x21]⟩ else ⟨"!", suffix⟩, c)

/-- Read a tag and check that a blank follows it, or inside brackets a comma. -/
def read? (inFlow : Bool) (fuel : Nat) (c : Cursor) : Option (TagName × Cursor) := do
  let (tag, c) ← parts? fuel c
  guard (Cursor.endsWord c.peek? || (inFlow && c.next (· = ',')))
  return (tag, c)

end OrmGen.Yaml.TagName
