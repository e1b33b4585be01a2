/-
  The shortest decimal of a binary floating-point number: the fewest digits that read back
  to it and, among those, the ones nearest to it.

  The reals that round to `m · 2 ^ q` lie between the points halfway to the neighbours, ends
  included when `m` is even. For 1, 2, … digits the two points of the decimal grid beside
  the number are tested against that interval; the first grid with a hit wins. Of two hits
  the nearer is taken, and the even one if both are equally near.
-/
import OrmGen.Binary64

namespace OrmGen.Binary64

/-- An interval of ratios with a point in it: `low`, `mid` and `high` over `den`. -/
structure Interval where
  low : Nat
  mid : Nat
  high : Nat
  den : Nat
  closed : Bool

/-- The magnitudes that round to the magnitude of `x`, which is `mid`. The gap below a power
of two is half as wide as the one above. -/
def interval (x : Binary64) : Interval :=
  let m := x.significand
  let up := pow2 x.exponent
  let narrow := m = leastSignificand && x.exponent > -1074
  { low := (if narrow then 4 * m - 1 else 4 * m - 2) * up
    mid := 4 * m * up
    high := (4 * m + 2) * up
    den := 4 * pow2 (-x.exponent)
    closed := m % 2 = 0 }

/-- Whether `d · 10 ^ g` lies in the interval. -/
def Interval.has (i : Interval) (d : Nat) (g : Int) : Bool :=
  let d := d * pow10 g * i.den
  let s := pow10 (-g)
  if i.closed then i.low * s ≤ d && d ≤ i.high * s else i.low * s < d && d < i.high * s

/-- The point of the grid `10 ^ g` beside `mid` that the interval has, if it has one. -/
def Interval.onGrid? (i : Interval) (g : Int) : Option Nat :=
  let num := i.mid * pow10 (-g)
  let den := i.den * pow10 g
  let d := num / den
  match i.has d g, i.has (d + 1) g with
  | true, false => some d
  | false, true => some (d + 1)
  | false, false => none
  | true, true =>
    let r := 2 * (num % den)
    if r < den then some d
    else if den < r then some (d + 1)
    else if d % 2 = 0 then some d else some (d + 1)

/-- The place just above the leading digit of `mid`: the least `k` with `mid < 10 ^ k`. -/
def Interval.top (i : Interval) : Int :=
  if i.den ≤ i.mid then (Nat.toDigits 10 (i.mid / i.den)).length
  else 1 - ((Nat.toDigits 10 (i.den / i.mid)).length : Int)

/-- Remove trailing zeros of `d` into the exponent, at most `fuel` of them. -/
def stripZeros : Nat → Nat → Int → Nat × Int
  | 0, d, g => (d, g)
  | fuel + 1, d, g => if d % 10 = 0 then stripZeros fuel (d / 10) (g + 1) else (d, g)

/-- Digits and exponent of the shortest decimal of a number other than zero. Seventeen digits
are always enough; the last resort is the number itself, written out. -/
def shortest (x : Binary64) : Nat × Int :=
  let i := x.interval
  let k := i.top
  let hit := (List.range 17).findSome? fun (n : Nat) =>
    let g := k - ((n + 1 : Nat) : Int)
    (i.onGrid? g).map fun d => (d, g)
  match hit with
  | some (d, g) => stripZeros 20 d g
  | none =>
    let (n, d) := x.ratio
    (n * Nat.pow 5 d.log2, -(d.log2 : Int))

end OrmGen.Binary64
