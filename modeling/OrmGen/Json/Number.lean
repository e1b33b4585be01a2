/-
  Numbers as JSON writes and reads them.

  A float is written with its shortest digits: positionally while the leading digit stands
  between the places -5 and 15, with `.0` added where no fraction is left, otherwise with an
  exponent that has a sign in either direction.

  Reading keeps as many digits of the significand as fit 64 bits, drops the others, and
  applies the power of ten in rounded steps; the last bit may differ from the nearest float.
-/
import OrmGen.Json
import OrmGen.Binary64.Shortest

namespace OrmGen.Json

/-- The digits of a positive float with the point or the exponent in place: `digits` times
`10 ^ exponent`. -/
def layout (digits : Nat) (exponent : Int) : String :=
  let ds := Nat.toDigits 10 digits
  let point : Int := ds.length + exponent
  if 0 ≤ exponent && point ≤ 16 then
    String.ofList (ds ++ List.replicate exponent.toNat '0' ++ ['.', '0'])
  else if 0 < point && point ≤ 16 then
    String.ofList (ds.take point.toNat ++ '.' :: ds.drop point.toNat)
  else if -5 < point && point ≤ 0 then
    String.ofList ('0' :: '.' :: List.replicate (-point).toNat '0' ++ ds)
  else
    let e := point - 1
    let mantissa := match ds with
      | d :: f :: fs => d :: '.' :: f :: fs
      | ds => ds
    String.ofList mantissa ++ "e" ++ (if 0 ≤ e then "+" else "-") ++ toString e.natAbs

/-- The text of a float. -/
def floatText (x : Binary64) : String :=
  let sign := if x.negative then "-" else ""
  if x.significand = 0 then sign ++ "0.0"
  else sign ++ layout x.shortest.1 x.shortest.2

/-- The text of a number. -/
def Number.text : Number → String
  | .integer n => toString n
  | .float x => floatText x

/-- The number as a natural below `2 ^ 32`, if it is an integer of that range. -/
def Number.toUInt32? : Number → Option UInt32
  | .integer n => if 0 ≤ n && n < UInt32.size then some (UInt32.ofNat n.toNat) else none
  | .float _ => none

namespace Number

/-- The value of a text of decimal digits. -/
def digitsValue (cs : List Char) : Nat := Nat.ofDigitChars 10 cs 0

/-- Append digits to a significand while it stays below `2 ^ 64`: the significand reached
and the number of digits left out. -/
def appendDigits : Nat → List Char → Nat × Nat
  | n, [] => (n, 0)
  | n, c :: cs =>
    let m := 10 * n + (c.toNat - '0'.toNat)
    if m < UInt64.size then appendDigits m cs else (n, (c :: cs).length)

/-- The parts of a number's spelling. -/
structure Spelling where
  negative : Bool
  whole : List Char
  fraction : List Char
  exponent : Option Int

/-- The exponent part of a number, whose mark has been read. -/
def exponentPart? (cs : List Char) : Option Int :=
  let (negative, digits) := match cs with
    | '+' :: r => (false, r)
    | '-' :: r => (true, r)
    | r => (false, r)
  if digits ≠ [] && digits.all Char.isDigit then
    some (if negative then -(digitsValue digits : Int) else digitsValue digits)
  else none

/-- Take a word apart by the grammar of numbers: an optional minus, digits without a leading
zero, an optional fraction, an optional exponent. -/
def spelling? (cs : List Char) : Option Spelling := do
  let (negative, cs) := match cs with
    | '-' :: r => (true, r)
    | r => (false, r)
  let whole := cs.takeWhile Char.isDigit
  let cs := cs.dropWhile Char.isDigit
  guard (whole ≠ [] && (whole = ['0'] || whole.head? ≠ some '0'))
  let (fraction, cs) ← match cs with
    | '.' :: r =>
      let fraction := r.takeWhile Char.isDigit
      if fraction = [] then none else some (fraction, r.dropWhile Char.isDigit)
    | r => some ([], r)
  let exponent ← match cs with
    | [] => some none
    | c :: r => if c = 'e' || c = 'E' then (exponentPart? r).map some else none
  return ⟨negative, whole, fraction, exponent⟩

/-- The float that a spelling stands for, unless it is too large. -/
def Spelling.float? (s : Spelling) : Option Binary64 := do
  let (n, dropped) := appendDigits 0 s.whole
  let (n, unread) := appendDigits n s.fraction
  let scale : Int := dropped - ((s.fraction.length - unread : Nat) : Int) + s.exponent.getD 0
  let x ← (Binary64.ofRatio? false n 1).bind (·.scaleByPow10? scale)
  return { x with negative := s.negative }

/-- The number that a spelling stands for. Without fraction and exponent it is an integer if
64 bits hold it, unsigned or, below zero, signed; `-0` is a float. -/
def Spelling.number? (s : Spelling) : Option Number :=
  let n := digitsValue s.whole
  let isWhole := s.fraction = [] && s.exponent.isNone
  if isWhole && !s.negative && n < UInt64.size then some (.integer n)
  else if isWhole && s.negative && 0 < n && n ≤ 0x8000000000000000 then some (.integer (-n))
  else s.float?.map .float

end Number
end OrmGen.Json
