/-
  The value of a scalar. Only a plain one can be other than a string, unless its tag says
  what it is: `null`, a truth value, an integer, a float. An infinity and what is not a number
  have no JSON form and become `null`.
-/
import OrmGen.Json
import OrmGen.Json.Literal
import OrmGen.Yaml.Node

namespace OrmGen.Yaml.Scalar

open Json.Literal (hexDigit?)

def isNull (s : String) : Bool := ["null", "Null", "NULL", "~"].contains s

def bool? (s : String) : Option Bool :=
  if ["true", "True", "TRUE"].contains s then some true
  else if ["false", "False", "FALSE"].contains s then some false
  else none

/-! ## Numbers -/

/-- The text without a plus sign, unless a second sign follows it. -/
def unsigned? : List Char → Option (List Char)
  | '+' :: '+' :: _ | '+' :: '-' :: _ => none
  | '+' :: cs => some cs
  | cs => some cs

/-- The natural that digits spell to a base of at most 16. -/
def natural? (base : Nat) (cs : List Char) : Option Nat :=
  if cs = [] then none
  else cs.foldlM (fun n c => do
    let d ← hexDigit? c
    if d < base then some (base * n + d) else none) 0

/-- Digits after a zero at the front make no decimal number. -/
def hasLeadingZero (cs : List Char) : Bool :=
  let cs := match cs with
    | '+' :: r | '-' :: r => r
    | r => r
  match cs with
  | '0' :: c :: r => (c :: r).all Char.isDigit
  | _ => false

/-- A natural in base 16, 8, 2 or 10, as its first characters tell. -/
def based? : List Char → Option Nat
  | '0' :: 'x' :: cs => natural? 16 cs
  | '0' :: 'o' :: cs => natural? 8 cs
  | '0' :: 'b' :: cs => natural? 2 cs
  | cs => if hasLeadingZero cs then none else natural? 10 cs

/-- The integer that a text spells, if 128 bits hold it, unsigned or, below zero, signed. -/
def integer? (cs : List Char) : Option Int :=
  match cs with
  | '-' :: cs => (based? cs).bind fun n => if n ≤ Nat.pow 2 127 then some (-n) else none
  | cs => ((unsigned? cs).bind based?).bind fun n => if n < Nat.pow 2 128 then some n else none

/-- Digits with an optional point and an optional exponent. -/
def decimal? (negative : Bool) (cs : List Char) : Option Binary64 := do
  let whole := cs.takeWhile Char.isDigit
  let cs := cs.dropWhile Char.isDigit
  let (fraction, cs) := match cs with
    | '.' :: r => (r.takeWhile Char.isDigit, r.dropWhile Char.isDigit)
    | r => ([], r)
  guard (whole ≠ [] || fraction ≠ [])
  let exponent : Int ← match cs with
    | [] => some 0
    | c :: r =>
      if c = 'e' || c = 'E' then
        match r with
        | '-' :: r => (natural? 10 r).map fun n => -(n : Int)
        | '+' :: r => (natural? 10 r).map Int.ofNat
        | r => (natural? 10 r).map Int.ofNat
      else none
  Binary64.ofDecimal? negative (Nat.ofDigitChars 10 (whole ++ fraction) 0)
    (exponent - fraction.length)

/-- The float that a text spells: `none` inside is an infinity or what is not a number. One
that is too large is not spelled. -/
def float? (s : String) : Option (Option Binary64) :=
  let beyond := [".inf", ".Inf", ".INF", "+.inf", "+.Inf", "+.INF", "-.inf", "-.Inf", "-.INF",
    ".nan", ".NaN", ".NAN"]
  if beyond.contains s then some none
  else
    match s.toList with
    | '-' :: cs => (decimal? true cs).map some
    | cs => ((unsigned? cs).bind (decimal? false)).map some

/-! ## Values -/

/-- An integer as a value, which 64 bits must hold, unsigned or, below zero, signed. -/
def ofInteger? (n : Int) : Option Json :=
  if -0x8000000000000000 ≤ n && n < UInt64.size then some (.number (.integer n)) else none

def ofFloat : Option Binary64 → Json
  | some x => .number (.float x)
  | none => .null

/-- The value of a plain scalar without a tag. -/
def untagged? (s : String) : Option Json :=
  if s = "" || isNull s then some .null
  else
    match bool? s with
    | some b => some (.bool b)
    | none =>
      match integer? s.toList with
      | some n => ofInteger? n
      | none =>
        if hasLeadingZero s.toList then some (.string s)
        else some ((float? s).elim (.string s) ofFloat)

/-- The value of a scalar. -/
def value? (tag : Option Tag) (s : String) (isPlain : Bool) : Option Json :=
  match tag with
  | none => if isPlain then untagged? s else some (.string s)
  | some .null => if isNull s then some .null else none
  | some .bool => (bool? s).map .bool
  | some .int => (integer? s.toList).bind ofInteger?
  | some .float => (float? s).map ofFloat
  | some .application => none
  | some .other => some (.string s)

end OrmGen.Yaml.Scalar
