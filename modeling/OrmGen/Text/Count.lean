/-
  Counts: naturals below `2 ^ 32`, read from texts and written in decimal.
-/
namespace OrmGen.Text

/-- The count that a text spells: decimal digits, possibly after a plus sign. -/
def toCount? (cs : List Char) : Option UInt32 :=
  let digits := match cs with
    | '+' :: r => r
    | r => r
  let n := Nat.ofDigitChars 10 digits 0
  if digits ≠ [] && digits.all Char.isDigit && n < UInt32.size then some (UInt32.ofNat n) else none

/-- A count in decimal. -/
def ofCount (n : UInt32) : String := toString n.toNat

end OrmGen.Text
