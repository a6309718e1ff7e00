/-!
# Binary64 numbers

Finite numbers of the IEEE 754 format binary64, as exact integers: a sign, a significand and a power
of two. All rounding is to the nearest number of the format, and of two equally near ones to the one
with the even significand.

* `roundHalfEven` rounds a ratio of natural numbers to a natural number.
* `Magnitude.ofRatio?` rounds such a ratio to the format; it is `none` on overflow.
* `Magnitude.ofDecimal?` reads a decimal in one scaling step: the significand is rounded to the
  format first, the power of ten is rounded to the format, and their product or quotient is rounded
  once more. The result can differ in the last place from the number nearest to the decimal.
-/

namespace DurableKV

/-- `num / den` rounded to a natural number, a half going to the even neighbour. -/
def roundHalfEven (num den : Nat) : Nat :=
  let q := num / den
  let r := num % den
  if den < 2 * r ∨ (2 * r = den ∧ q % 2 = 1) then q + 1 else q

/-- The absolute value `significand * 2 ^ exponent` of a finite binary64 number. Significands are
below `2 ^ 53` and exponents between `-1074` and `971`; a significand below `2 ^ 52` has the least
exponent. -/
structure Magnitude where
  /-- The integral significand. -/
  significand : Nat
  /-- The power of two. -/
  exponent : Int
  deriving DecidableEq, Repr

namespace Magnitude

/-- The number zero. -/
def zero : Magnitude := ⟨0, -1074⟩

instance : Inhabited Magnitude := ⟨zero⟩

/-- Is this zero? -/
def isZero (x : Magnitude) : Bool := x.significand == 0

/-- The ratio `num * 2 ^ e / den` as numerator and denominator. -/
def scaled (num den : Nat) (e : Int) : Nat × Nat :=
  if 0 ≤ e then (num * Nat.pow 2 e.toNat, den) else (num, den * Nat.pow 2 (-e).toNat)

/-- The largest `e` with `2 ^ e ≤ num / den`, for a positive ratio. -/
def log2Ratio (num den : Nat) : Int :=
  let e : Int := (num.log2 : Int) - den.log2
  let (n, d) := scaled num den (-e)
  if d ≤ n then e else e - 1

/-- The number of the format nearest to `num / den`; none if that is too large for the format. -/
def ofRatio? (num den : Nat) : Option Magnitude :=
  if num = 0 then some zero
  else
    let e := max (log2Ratio num den - 52) (-1074)
    let (n, d) := scaled num den (-e)
    let m := roundHalfEven n d
    let x : Magnitude := if m = Nat.pow 2 53 then ⟨Nat.pow 2 52, e + 1⟩ else ⟨m, e⟩
    if 971 < x.exponent then none else some x

/-- The number as numerator and denominator. -/
def ratio (x : Magnitude) : Nat × Nat := scaled x.significand 1 x.exponent

/-- The rounded product. -/
def mul? (x y : Magnitude) : Option Magnitude :=
  ofRatio? (x.ratio.1 * y.ratio.1) (x.ratio.2 * y.ratio.2)

/-- The rounded quotient. -/
def div? (x y : Magnitude) : Option Magnitude :=
  ofRatio? (x.ratio.1 * y.ratio.2) (x.ratio.2 * y.ratio.1)

/-! ## Reading a decimal -/

/-- The number nearest to `10 ^ k`, for `k ≤ 308`. -/
def pow10 (k : Nat) : Magnitude := (ofRatio? (Nat.pow 10 k) 1).getD zero

/-- Divide by `10 ^ 308` up to `n` times, stopping at zero. -/
def divPow308 : Nat → Magnitude → Magnitude
  | 0, x => x
  | n + 1, x => if x.isZero then x else divPow308 n ((x.div? (pow10 308)).getD zero)

/-- The number read from `significand * 10 ^ exponent` in one scaling step; none on overflow.
Exponents below `-308` are reached by dividing by `10 ^ 308` first. -/
def ofDecimal? (significand : Nat) (exponent : Int) : Option Magnitude :=
  (ofRatio? significand 1).bind fun x =>
    if x.isZero then some x
    else if 308 < exponent then none
    else if 0 ≤ exponent then x.mul? (pow10 exponent.toNat)
    else
      let places := (-exponent).toNat
      let steps := (places - 1) / 308
      (divPow308 steps x).div? (pow10 (places - 308 * steps))

end Magnitude

/-- A finite binary64 number. Both signs of zero are numbers of their own. -/
structure Binary64 where
  /-- Is the sign set? -/
  negative : Bool
  /-- The absolute value. -/
  magnitude : Magnitude
  deriving DecidableEq, Repr

instance : Inhabited Binary64 := ⟨⟨false, .zero⟩⟩

end DurableKV
