/-!
# Durations in text

A duration is a number of nanoseconds. It is shown in the largest of the units s, ms, µs and ns that
it reaches, with as many places after the point as it needs.
-/

namespace DurableKV.Text

/-- The `width` digits of a fraction without the zeros at its end, after a point; nothing if the
fraction is zero. -/
def fraction (n width : Nat) : String :=
  let ds := Nat.toDigits 10 n
  let ds := List.replicate (width - ds.length) '0' ++ ds
  let ds := (ds.reverse.dropWhile (· == '0')).reverse
  if ds.isEmpty then "" else String.ofList ('.' :: ds)

/-- A number of nanoseconds in the largest unit that it reaches. -/
def duration (nanos : Nat) : String :=
  if 1000000000 ≤ nanos then
    Nat.repr (nanos / 1000000000) ++ fraction (nanos % 1000000000) 9 ++ "s"
  else if 1000000 ≤ nanos then
    Nat.repr (nanos / 1000000) ++ fraction (nanos % 1000000) 6 ++ "ms"
  else if 1000 ≤ nanos then
    Nat.repr (nanos / 1000) ++ fraction (nanos % 1000) 3 ++ "µs"
  else Nat.repr nanos ++ "ns"

end DurableKV.Text
