import DurableKV.Decimal.Binary64

/-!
# The shortest decimal that reads back

Every binary64 number has an interval of reals that round to it. Its shortest decimal is the one
with the fewest digits in that interval, and among those the nearest to the number, an exact tie
going to the even last digit. If a point of a decimal grid lies in the interval, so does one of the
number's two neighbours on that grid, so it suffices to try these two for 1, 2, … 17 digits.

`Decimal.Style` says how such a decimal is laid out, and `Decimal.text` lays it out.
-/

namespace DurableKV

/-- The decimal `digits * 10 ^ exponent`. -/
structure Decimal where
  /-- The digits, read as a natural number. -/
  digits : Nat
  /-- The power of ten. -/
  exponent : Int
  deriving DecidableEq, Repr

namespace Magnitude

/-- The ratio `num * 10 ^ e / den` as numerator and denominator. -/
def scaledByTen (num den : Nat) (e : Int) : Nat × Nat :=
  if 0 ≤ e then (num * Nat.pow 10 e.toNat, den) else (num, den * Nat.pow 10 (-e).toNat)

/-- The number of decimal digits. -/
def digitCount (n : Nat) : Nat := (Nat.toDigits 10 n).length

/-- The largest `e` with `10 ^ e ≤ num / den`, for a positive ratio. -/
def log10Ratio (num den : Nat) : Int :=
  let e : Int := (digitCount num : Int) - digitCount den
  let (n, d) := scaledByTen num den (-e)
  if d ≤ n then e else e - 1

/-- Does `digits * 10 ^ e` round to `x`? The bounds are the midpoints to the neighbours of `x`, in
quarters of its last place; a midpoint itself rounds to the even significand. -/
def roundsTo (x : Magnitude) (digits : Nat) (e : Int) : Bool :=
  let (n, d) := scaledByTen digits 1 e
  let (n, d) := scaled n d (2 - x.exponent)
  let low := 4 * x.significand -
    (if x.significand = Nat.pow 2 52 ∧ -1074 < x.exponent then 1 else 2)
  let high := 4 * x.significand + 2
  if x.significand % 2 = 0 then low * d ≤ n && n ≤ high * d else low * d < n && n < high * d

/-- The neighbour of `x` on the grid of multiples of `10 ^ e` that reads back as `x`, if one
does. -/
def onGrid? (x : Magnitude) (e : Int) : Option Nat :=
  let (n, d) := scaledByTen x.ratio.1 x.ratio.2 (-e)
  let below := n / d
  let nearest := roundHalfEven n d
  let other := if nearest = below then below + 1 else below
  if x.roundsTo nearest e then some nearest
  else if x.roundsTo other e then some other
  else none

/-- The first of the grids with `count`, `count + 1`, … digits on which `x` reads back. -/
def shortestFrom (x : Magnitude) (top : Int) : Nat → Nat → Decimal
  | 0, count => ⟨(x.onGrid? (top + 1 - count)).getD 0, top + 1 - count⟩
  | more + 1, count =>
    match x.onGrid? (top + 1 - count) with
    | some n => ⟨n, top + 1 - count⟩
    | none => shortestFrom x top more (count + 1)

/-- The shortest decimal that reads back as `x`; zero has the digit 0. -/
def shortest (x : Magnitude) : Decimal :=
  if x.isZero then ⟨0, 0⟩
  else x.shortestFrom (log10Ratio x.ratio.1 x.ratio.2) 16 1

end Magnitude

namespace Decimal

/-- How a decimal is laid out. -/
structure Style where
  /-- The least power of ten of a leading digit that is written positionally. -/
  least : Int
  /-- The greatest power of ten of a leading digit that is written positionally. -/
  greatest : Int
  /-- What stands before a non-negative exponent. -/
  plus : String
  deriving DecidableEq, Repr

/-- Drop the zeros at the end of the digits. -/
def trim : Nat → Decimal → Decimal
  | 0, x => x
  | n + 1, x =>
    if x.digits % 10 = 0 ∧ x.digits ≠ 0 then trim n ⟨x.digits / 10, x.exponent + 1⟩ else x

/-- A decimal in text. Positional text has at least one digit on either side of the point;
scientific text has one digit before the point. -/
def text (style : Style) (x : Decimal) : String :=
  if x.digits = 0 then "0.0"
  else
    let x := x.trim 20
    let ds := Nat.toDigits 10 x.digits
    let lead : Int := x.exponent + ds.length - 1
    if style.least ≤ lead ∧ lead ≤ style.greatest then
      if 0 ≤ x.exponent then
        String.ofList (ds ++ List.replicate x.exponent.toNat '0' ++ ['.', '0'])
      else if 0 ≤ lead then
        String.ofList (ds.take (lead.toNat + 1) ++ '.' :: ds.drop (lead.toNat + 1))
      else
        String.ofList ('0' :: '.' :: List.replicate (-lead - 1).toNat '0' ++ ds)
    else
      let fraction := if ds.length ≤ 1 then [] else '.' :: ds.drop 1
      let sign := if lead < 0 then "-" else style.plus
      String.ofList (ds.take 1 ++ fraction) ++ "e" ++ sign ++ Nat.repr lead.natAbs

end Decimal

namespace Binary64

/-- A number in text: its sign, then its shortest decimal. -/
def text (style : Decimal.Style) (x : Binary64) : String :=
  (if x.negative then "-" else "") ++ x.magnitude.shortest.text style

end Binary64

end DurableKV
