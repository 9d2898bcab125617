/-!
# The exact value of a double

A finite double is a whole number of units of `2 ^ -1074`, the smallest positive double, and so
is every whole number.  Comparing such counts of units is exact, also between a double and a
whole number beyond `2 ^ 53`, where rounding one to the other would lose the difference.
-/

namespace Rulebook
namespace Double

/-- A number on the extended line, counted in units of `2 ^ -1074`. -/
inductive Magnitude where
  | negativeInfinity
  | finite (units : Int)
  | positiveInfinity
deriving DecidableEq

def Magnitude.lt : Magnitude → Magnitude → Bool
  | .negativeInfinity, .negativeInfinity => false
  | .negativeInfinity, _ => true
  | .finite a, .finite b => a < b
  | .finite _, .positiveInfinity => true
  | _, _ => false

def unitsInOne : Nat :=
  Nat.pow 2 1074

def Magnitude.ofInt (n : Int) : Magnitude :=
  .finite (n * unitsInOne)

/-- Whether the sign bit is set; it is for `-0.0`. -/
def isNegative (x : Float) : Bool :=
  x.toBits.toNat / Nat.pow 2 63 = 1

def exponentField (x : Float) : Nat :=
  x.toBits.toNat / Nat.pow 2 52 % Nat.pow 2 11

def fractionField (x : Float) : Nat :=
  x.toBits.toNat % Nat.pow 2 52

/-- The significand of a finite double: its fraction, with the leading one of a normal number. -/
def significand (x : Float) : Nat :=
  if exponentField x = 0 then fractionField x else fractionField x + Nat.pow 2 52

/-- How far the significand of a finite double is shifted, in units. -/
def shift (x : Float) : Nat :=
  exponentField x - 1

/-- The exact value of a double; a NaN has none. -/
def magnitude? (x : Float) : Option Magnitude :=
  if exponentField x = 2047 then
    if fractionField x = 0 then
      some (if isNegative x then .negativeInfinity else .positiveInfinity)
    else none
  else
    let units : Int := (significand x * Nat.pow 2 (shift x) : Nat)
    some (.finite (if isNegative x then -units else units))

def toInt? (x : Float) : Option Int :=
  match magnitude? x with
  | some (.finite units) => if units % unitsInOne = 0 then some (units / unitsInOne) else none
  | _ => none

end Double
end Rulebook
