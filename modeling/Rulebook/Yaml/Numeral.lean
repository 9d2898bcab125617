import Rulebook.Double.Nearest
import Rulebook.Text.Numeral

/-!
# Numbers in scalars

Integers are written in base two, eight, ten, sixteen or sixty, decimals in base ten with a point, or
in base sixty with a point in the last group.  Underscores may stand between digits.
-/

namespace Rulebook
namespace Yaml

def isDigitOf (base : Nat) (c : Char) : Bool :=
  if c.isDigit then c.toNat - '0'.toNat < base
  else base = 16 && (('a' ≤ c && c ≤ 'f') || ('A' ≤ c && c ≤ 'F'))

def digitOf (c : Char) : Nat :=
  if c.isDigit then c.toNat - '0'.toNat
  else if 'a' ≤ c then c.toNat - 'a'.toNat + 10
  else c.toNat - 'A'.toNat + 10

/-- The number that digits of a base write; underscores are passed over. -/
def number (base : Nat) (digits : List Char) : Nat :=
  (digits.filter (· ≠ '_')).foldl (fun n c => base * n + digitOf c) 0

def areDigits (base : Nat) (text : List Char) : Bool :=
  text.all fun c => isDigitOf base c || c = '_'

/-- Whether a text is a group of base sixty after the first. -/
def isGroup : List Char → Bool
  | [c] => c.isDigit
  | [c, d] => isDigitOf 6 c && d.isDigit
  | _ => false

/-- The groups of a number in base sixty, the first having any number of digits. -/
def groups? (text : List Char) : Option (List Nat) :=
  match text.splitOn ':' with
  | (c :: first) :: others =>
    if c.isDigit && areDigits 10 first && others.all isGroup then
      some (((c :: first) :: others).map (number 10))
    else none
  | _ => none

/-- The natural number that a text writes in one of the bases.  In bases two and sixteen there may be
underscores alone. -/
def natural? (text : List Char) : Option Nat :=
  match text with
  | ['0'] => some 0
  | '0' :: 'b' :: c :: rest =>
    if areDigits 2 (c :: rest) then some (number 2 (c :: rest)) else none
  | '0' :: 'x' :: c :: rest =>
    if areDigits 16 (c :: rest) then some (number 16 (c :: rest)) else none
  | '0' :: rest => if areDigits 8 rest then some (number 8 rest) else none
  | text => (groups? text).map fun groups => groups.foldl (fun n group => 60 * n + group) 0

def integer? (text : List Char) : Option Int :=
  let (negative, body) := Text.signed text
  (natural? body).map fun n => if negative then -(n : Int) else n

/-- Whether a scalar has the form of an integer but no digit behind the mark of its base. -/
def lacksDigits (text : List Char) : Bool :=
  match (Text.signed text).2 with
  | '0' :: base :: c :: rest => (base = 'b' || base = 'x') && (c :: rest).all (· = '_')
  | _ => false

/-- The exponent of a decimal, which needs a sign. -/
def exponent? : List Char → Option Int
  | [] => some 0
  | e :: sign :: c :: rest =>
    if (e = 'e' || e = 'E') && (sign = '+' || sign = '-') && (c :: rest).all Char.isDigit then
      some (if sign = '-' then -(number 10 (c :: rest) : Int) else number 10 (c :: rest))
    else none
  | _ => none

def isDigitPart (c : Char) : Bool :=
  c.isDigit || c = '_'

def ofParts (negative : Bool) (front back : List Char) (exponent : Int) : Float :=
  Double.ofDecimal negative (number 10 (front ++ back))
    (exponent - (back.filter (· ≠ '_')).length)

def decimal? (text : List Char) : Option Float :=
  let (negative, body) := Text.signed text
  let front := body.takeWhile isDigitPart
  match body.dropWhile isDigitPart with
  | '.' :: rest =>
    let back := rest.takeWhile isDigitPart
    let startsWell := match front, back with
      | c :: _, _ => c.isDigit
      | [], c :: _ => c.isDigit && text.head? = some '.'
      | [], [] => false
    if startsWell then
      (exponent? (rest.dropWhile isDigitPart)).map (ofParts negative front back)
    else none
  | _ => none

/-- The double that groups of base sixty write, of which the last has a point.  The groups are added
up from the last to the first. -/
def sexagesimal? (text : List Char) : Option Float := do
  let (negative, body) := Text.signed text
  let whole := body.takeWhile (· ≠ '.')
  let back ← match body.dropWhile (· ≠ '.') with
    | _ :: back => some back
    | [] => none
  let groups := (← groups? whole).reverse
  if groups.length < 2 || !back.all isDigitPart then none
  else
    let last := ofParts false (toString (groups.headD 0)).toList back 0
    let terms := (groups.drop 1).zipIdx.map fun (group, i) =>
      Double.ofInt group * Double.ofInt (Nat.pow 60 (i + 1))
    let size := terms.foldl (· + ·) last
    some (if negative then -size else size)

/-- Whether a double in base sixty has so many groups that no double is the weight of the first. -/
def hasTooManyGroups (text : List Char) : Bool :=
  (Double.ofInt? (Nat.pow 60 (text.count ':'))).isNone

def special? (text : List Char) : Option Float :=
  let (negative, body) := Text.signed text
  let word := String.ofList body
  if word = ".inf" || word = ".Inf" || word = ".INF" then
    some (if negative then -1.0 / 0.0 else 1.0 / 0.0)
  else if text = body && (word = ".nan" || word = ".NaN" || word = ".NAN") then some (0.0 / 0.0)
  else none

def double? (text : List Char) : Option Float :=
  ((decimal? text).or (sexagesimal? text)).or (special? text)

end Yaml
end Rulebook
