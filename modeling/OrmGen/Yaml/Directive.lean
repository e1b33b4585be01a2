/-
  Directives: lines at the head of a document that start with a percent sign. One states the
  version of the language, the other what a handle of tags stands for.
-/
import OrmGen.Yaml.TagName

namespace OrmGen.Yaml.Directive

/-- Read a number of at most nine digits. -/
def number? (c : Cursor) : Option (Nat × Cursor) := do
  let (digits, c) := c.takeWhile Char.isDigit
  guard (digits ≠ [] && digits.length ≤ 9)
  return (Nat.ofDigitChars 10 digits 0, c)

/-- Read the two numbers of a version. -/
def version? (c : Cursor) : Option (Token × Cursor) := do
  let (major, c) ← number? (c.skipWhile isSpaceOrTab)
  guard (c.next (· = '.'))
  let (minor, c) ← number? c.advance
  return (.version major minor, c)

/-- Read a handle and what it stands for. -/
def tagHandle? (fuel : Nat) (c : Cursor) : Option (Token × Cursor) := do
  let (name, isClosed, c) ← TagName.handle? (c.skipWhile isSpaceOrTab)
  guard ((isClosed || name = []) && c.atSpaceOrTab)
  let (replacement, c) ← TagName.fullAddress? TagName.isWideAddressChar fuel
    (c.skipWhile isSpaceOrTab)
  guard (Cursor.endsWord c.peek?)
  return (.tagHandle (if isClosed then TagName.enclosed name else "!") replacement, c)

/-- Read a directive from its percent sign to the end of its line. -/
def read? (fuel : Nat) (c : Cursor) : Option (Token × Cursor) := do
  let (name, c) := c.advance.takeWhile isNameChar
  guard (Cursor.endsWord c.peek?)
  let (token, c) ←
    if name = "YAML".toList then version? c
    else if name = "TAG".toList then tagHandle? fuel c
    else none
  let c := c.skipToLineEnd
  guard (Cursor.endsLine c.peek?)
  return (token, c.skipBreak)

end OrmGen.Yaml.Directive
