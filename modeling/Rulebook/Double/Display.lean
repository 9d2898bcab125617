import Rulebook.Double.Shortest

/-!
# Doubles as text

How a double is laid out once its digits are chosen.  The choices of the layout are one record;
`Layout.plain` is the one that messages and answers use.
-/

namespace Rulebook
namespace Double

/-- The choices that a text form of doubles makes. -/
structure Layout where
  /-- The least decimal exponent written positionally. -/
  leastPositional : Int
  /-- The least decimal exponent that is too large to be written positionally. -/
  firstScientific : Int
  /-- Least number of digits of an exponent. -/
  exponentPlaces : Nat
  infinityText : String
  nanText : String

/-- Positional from `0.0001` to below `10 ^ 16`, always with a fraction; otherwise an exponent
with a sign and at least two digits. -/
def Layout.plain : Layout where
  leastPositional := -4
  firstScientific := 16
  exponentPlaces := 2
  infinityText := "inf"
  nanText := "nan"

/-- The digits of a decimal, without the zeros at the end. -/
def Decimal.digitText (d : Decimal) : List Char :=
  ((Nat.toDigits 10 d.digits).reverse.dropWhile (· = '0')).reverse

/-- The decimal exponent of the first digit.  A decimal that was rounded up to a power of ten has
one digit more than places. -/
def Decimal.exponent (d : Decimal) : Int :=
  d.point - 1 + ((Nat.toDigits 10 d.digits).length - d.places : Int)

def Layout.positional (digits : List Char) (exponent : Int) : List Char :=
  if exponent < 0 then
    '0' :: '.' :: List.replicate (-exponent - 1).toNat '0' ++ digits
  else
    let whole := exponent.toNat + 1
    let front := digits.take whole ++ List.replicate (whole - digits.length) '0'
    let fraction := digits.drop whole
    front ++ '.' :: (if fraction.isEmpty then ['0'] else fraction)

def Layout.scientific (l : Layout) (digits : List Char) (exponent : Int) : List Char :=
  let size := Nat.toDigits 10 exponent.natAbs
  let power := List.replicate (l.exponentPlaces - size.length) '0' ++ size
  let fraction := digits.drop 1
  digits.take 1 ++ (if fraction.isEmpty then [] else '.' :: fraction) ++
    'e' :: (if exponent < 0 then '-' else '+') :: power

def Layout.positive (l : Layout) (x : Float) : List Char :=
  let d := shortest x
  let exponent := d.exponent
  if l.leastPositional ≤ exponent && exponent < l.firstScientific then
    Layout.positional d.digitText exponent
  else l.scientific d.digitText exponent

def Layout.render (l : Layout) (x : Float) : String :=
  let sign := if isNegative x then "-" else ""
  match magnitude? x with
  | none => l.nanText
  | some (.finite 0) => sign ++ "0.0"
  | some (.finite _) => sign ++ String.ofList (l.positive (if isNegative x then -x else x))
  | some _ => sign ++ l.infinityText

/-- A double as messages and answers show it. -/
def display (x : Float) : String :=
  Layout.plain.render x

end Double
end Rulebook
