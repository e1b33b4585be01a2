/-
  Binary floating-point numbers of 64 bits, as exact integers: sign, significand and power
  of two. All arithmetic is on ratios of naturals, rounded once to the nearest number, a
  half going to the even significand. There is no infinity: what would round to one is
  `none`.
-/
namespace OrmGen

/-- The number `± significand · 2 ^ exponent`. Numbers in use have the form that `ofRatio?`
builds: exponent from -1074 to 971, significand below `2 ^ 53`, and at least `2 ^ 52` unless
the exponent is least. -/
structure Binary64 where
  negative : Bool
  significand : Nat
  exponent : Int
deriving DecidableEq, Repr

namespace Binary64

/-- `2 ^ e`, or 1 below zero. -/
def pow2 (e : Int) : Nat := Nat.pow 2 e.toNat

/-- `10 ^ e`, or 1 below zero. -/
def pow10 (e : Int) : Nat := Nat.pow 10 e.toNat

/-- The least significand of a number whose exponent is not the least one. -/
def leastSignificand : Nat := pow2 52

/-- `num / den` rounded to the nearest natural, a half to the even one. -/
def roundedQuotient (num den : Nat) : Nat :=
  let q := num / den
  let r := num % den
  if 2 * r < den then q
  else if den < 2 * r then q + 1
  else if q % 2 = 0 then q else q + 1

/-- The greatest `e` with `2 ^ e ≤ num / den`, for positive `num` and `den`. -/
def log2Ratio (num den : Nat) : Int :=
  let e : Int := (num.log2 : Int) - (den.log2 : Int)
  if den * pow2 e ≤ num * pow2 (-e) then e else e - 1

/-- The number nearest to `± num / den`, unless it is too large. -/
def ofRatio? (negative : Bool) (num den : Nat) : Option Binary64 :=
  if num = 0 then some ⟨negative, 0, -1074⟩
  else
    let q := max (log2Ratio num den - 52) (-1074)
    let m := roundedQuotient (num * pow2 (-q)) (den * pow2 q)
    let x : Binary64 :=
      if m = 2 * leastSignificand then ⟨negative, leastSignificand, q + 1⟩ else ⟨negative, m, q⟩
    if 971 < x.exponent then none else some x

/-- The magnitude of a number as a ratio. -/
def ratio (x : Binary64) : Nat × Nat :=
  (x.significand * pow2 x.exponent, pow2 (-x.exponent))

/-- The product of two magnitudes, with the sign of the first. -/
def mul? (x y : Binary64) : Option Binary64 :=
  ofRatio? x.negative (x.ratio.1 * y.ratio.1) (x.ratio.2 * y.ratio.2)

/-- The quotient of two magnitudes, with the sign of the first. -/
def div? (x y : Binary64) : Option Binary64 :=
  ofRatio? x.negative (x.ratio.1 * y.ratio.2) (x.ratio.2 * y.ratio.1)

/-- The number nearest to `10 ^ k`. -/
def ofPow10? (k : Nat) : Option Binary64 := ofRatio? false (pow10 k) 1

/-- The number nearest to `± digits · 10 ^ exponent`, unless it is too large. The two tests
on the place of the leading digit only keep the powers of ten small. -/
def ofDecimal? (negative : Bool) (digits : Nat) (exponent : Int) : Option Binary64 :=
  let top := (Nat.toDigits 10 digits).length + exponent
  if digits = 0 || top < -340 then some ⟨negative, 0, -1074⟩
  else if 320 < top then none
  else ofRatio? negative (digits * pow10 exponent) (pow10 (-exponent))

/-- `x · 10 ^ exponent` in rounded steps: powers of ten up to `10 ^ 308` are rounded and then
applied by one rounded operation; a smaller scale divides by `10 ^ 308` first. -/
def scaleByPow10? (x : Binary64) (exponent : Int) : Option Binary64 :=
  if exponent.natAbs ≤ 308 then
    (ofPow10? exponent.natAbs).bind fun p => if 0 ≤ exponent then x.mul? p else x.div? p
  else if x.significand = 0 then some x
  else if 0 ≤ exponent then none
  else
    ((ofPow10? 308).bind fun p => x.div? p).bind fun y => scaleByPow10? y (exponent + 308)
termination_by exponent.natAbs
decreasing_by omega

end Binary64
end OrmGen
