/-!
# The double nearest to a quotient

A quotient of two whole numbers is rounded once: its integer part on the finest binary grid that
keeps fifty-three digits is taken, and the remainder decides whether to go up, a half going to
the even neighbour.  Reading decimals, dividing and converting whole numbers all use it.
-/

namespace Rulebook
namespace Double

/-- A quotient rounded to a whole number, a half going to the even neighbour. -/
def roundHalfEven (num den : Nat) : Nat :=
  let floor := num / den
  let rest := num % den
  if 2 * rest < den then floor
  else if den < 2 * rest then floor + 1
  else if floor % 2 = 0 then floor else floor + 1

/-- The quotient `num / den` divided by `2 ^ grid`, as a numerator and a denominator. -/
def scaled (num den : Nat) (grid : Int) : Nat × Nat :=
  if 0 ≤ grid then (num, den * Nat.pow 2 grid.toNat)
  else (num * Nat.pow 2 (-grid).toNat, den)

/-- The exponent of the grid on which a quotient keeps fifty-three binary digits, or of the
finest grid that there is. -/
def gridFor (num den : Nat) : Int :=
  let guess : Int := (num.log2 : Int) - (den.log2 : Int) - 53
  let (n, d) := scaled num den guess
  -- The logarithms tell the quotient up to a factor of two, so the guess is off by one at most.
  let exact := if n / d < Nat.pow 2 53 then guess else guess + 1
  max exact (-1074)

/-- The bits of a double with a sign, and a significand on a grid; what is too large becomes
infinite. -/
def bitsOf (negative : Bool) (significand : Nat) (grid : Int) : UInt64 :=
  -- The leading one of a normal significand makes the exponent field greater by one, and one that
  -- was rounded up to `2 ^ 53` makes it greater by two.
  let body := (grid + 1074).toNat * Nat.pow 2 52 + significand
  let capped := min body (2047 * Nat.pow 2 52)
  UInt64.ofNat (if negative then capped + Nat.pow 2 63 else capped)

/-- The double nearest to `num / den`, with a sign.  Quotients too large for a double give an
infinity. -/
def ofQuotient (negative : Bool) (num den : Nat) : Float :=
  if num = 0 then Float.ofBits (bitsOf negative 0 (-1074))
  else
    let grid := gridFor num den
    let (n, d) := scaled num den grid
    Float.ofBits (bitsOf negative (roundHalfEven n d) grid)

def ofInt (n : Int) : Float :=
  ofQuotient (n < 0) n.natAbs 1

def ofInt? (n : Int) : Option Float :=
  let x := ofInt n
  if x.isInf then none else some x

def ofRatio? (num den : Int) : Option Float :=
  let x := ofQuotient ((num < 0) != (den < 0)) num.natAbs den.natAbs
  if x.isInf then none else some x

/-- The double nearest to `digits * 10 ^ exponent`.  Beyond four hundred places to either side
the outcome no longer depends on the digits. -/
def ofDecimal (negative : Bool) (digits : Nat) (exponent : Int) : Float :=
  let places : Int := (Nat.toDigits 10 digits).length
  if digits = 0 || exponent + places < -400 then ofQuotient negative 0 1
  else if 400 < exponent + places then ofQuotient negative (Nat.pow 2 1024) 1
  else if 0 ≤ exponent then ofQuotient negative (digits * Nat.pow 10 exponent.toNat) 1
  else ofQuotient negative digits (Nat.pow 10 (-exponent).toNat)

end Double
end Rulebook
