import Rulebook.Double.Exact

/-!
# The shortest decimal of a double

The digits that a finite positive double is written with: as few as read back to the same double,
and of those the nearest.  A double is read back from every real number in its rounding interval,
whose ends belong to it exactly when its significand is even.
-/

namespace Rulebook
namespace Double

/-- A decimal `0.d₁d₂… · 10 ^ point`: its digits as a whole number, how many there are, and the
position of the point. -/
structure Decimal where
  digits : Nat
  places : Nat
  point : Int

/-- The rounding interval of a double, in quarters of its last binary place. -/
structure Interval where
  low : Nat
  value : Nat
  high : Nat
  closed : Bool
  /-- The exponent of the quarter, as a power of two. -/
  grid : Int

/-- The rounding interval of a positive finite double.  Below a power of two the neighbours are
twice as close. -/
def interval (x : Float) : Interval :=
  let m := significand x
  let narrow := fractionField x = 0 && 1 < exponentField x
  { low := if narrow then 4 * m - 1 else 4 * m - 2
    value := 4 * m
    high := 4 * m + 2
    closed := m % 2 = 0
    grid := (shift x : Int) - 1076 }

/-- Both sides of `a · 2 ^ two = b · 10 ^ ten` as whole numbers, scaled by the same factor. -/
def aligned (a : Nat) (two : Int) (b : Nat) (ten : Int) : Nat × Nat :=
  (a * Nat.pow 2 two.toNat * Nat.pow 10 (-ten).toNat,
    b * Nat.pow 10 ten.toNat * Nat.pow 2 (-two).toNat)

def Interval.contains (i : Interval) (candidate : Nat) (ten : Int) : Bool :=
  let (low, c) := aligned i.low i.grid candidate ten
  let (high, d) := aligned i.high i.grid candidate ten
  if i.closed then low ≤ c && d ≤ high else low < c && d < high

/-- The largest whole number whose product with `10 ^ ten` is at most the value. -/
def Interval.below (i : Interval) (ten : Int) : Nat :=
  let (v, unit) := aligned i.value i.grid 1 ten
  v / unit

/-- Whether the value is nearer to the neighbour above than to the one below on a decimal grid;
a tie goes to the even one. -/
def Interval.nearerAbove (i : Interval) (below : Nat) (ten : Int) : Bool :=
  let (twice, middle) := aligned (2 * i.value) i.grid (2 * below + 1) ten
  middle < twice || (middle = twice && below % 2 = 1)

/-- The decimal point of a value: the least `k` with the value below `10 ^ k`.  No power of ten
below one is a double, so the digits of the inverse give it for small values. -/
def Interval.point (i : Interval) : Int :=
  let (v, unit) := aligned i.value i.grid 1 0
  if unit ≤ v then (Nat.toDigits 10 (v / unit)).length
  else 1 - ((Nat.toDigits 10 (unit / v)).length : Int)

/-- The candidate with a number of digits that reads back, if there is one. -/
def Interval.candidate? (i : Interval) (point : Int) (places : Nat) : Option Decimal :=
  let ten := point - places
  let below := i.below ten
  let lower := 0 < below && i.contains below ten
  let upper := i.contains (below + 1) ten
  if upper && (!lower || i.nearerAbove below ten) then some ⟨below + 1, places, point⟩
  else if lower then some ⟨below, places, point⟩
  else none

/-- The shortest decimal of a positive finite double.  Seventeen digits always suffice. -/
def shortest (x : Float) : Decimal :=
  let i := interval x
  let point := i.point
  ((List.range 17).findSome? fun k => i.candidate? point (k + 1)).getD
    ⟨i.below (point - 17), 17, point⟩

end Double
end Rulebook
