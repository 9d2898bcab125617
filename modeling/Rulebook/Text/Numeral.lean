import Rulebook.Double.Nearest
import Rulebook.Text.DecimalDigit

/-!
# Numerals

Whole numbers and decimals as a condition may write them: an optional sign, decimal digits of any
script with single underscores between them, and in decimals a point and an exponent.
-/

namespace Rulebook
namespace Text

/-- The values of a run of digits, which single underscores may separate. -/
def digits? : List Char → Option (List Nat)
  | [] => none
  | [c] => (digitValue? c).map ([·])
  | c :: '_' :: rest => do
    let first ← digitValue? c
    let others ← digits? rest
    some (first :: others)
  | c :: rest => do
    let first ← digitValue? c
    let others ← digits? rest
    some (first :: others)

def ofDigits (digits : List Nat) : Nat :=
  digits.foldl (fun n digit => 10 * n + digit) 0

/-- Whether a numeral has a minus sign, and what follows its sign. -/
def signed : List Char → Bool × List Char
  | '-' :: rest => (true, rest)
  | '+' :: rest => (false, rest)
  | text => (false, text)

def whole? (text : List Char) : Option Int :=
  let (negative, body) := signed text
  (digits? body).map fun digits =>
    if negative then -(ofDigits digits : Int) else ofDigits digits

/-- The part of a text before the first character of a kind, and what follows that character. -/
def cut (isCut : Char → Bool) (text : List Char) : List Char × Option (List Char) :=
  let front := text.takeWhile (!isCut ·)
  match text.dropWhile (!isCut ·) with
  | [] => (front, none)
  | _ :: back => (front, some back)

/-- The digits on one side of the point, of which there may be none. -/
def side? (text : List Char) : Option (List Nat) :=
  if text.isEmpty then some [] else digits? text

/-- The double that a decimal writes, rounded to the nearest. -/
def decimal? (text : List Char) : Option Float := do
  let (negative, body) := signed text
  let (mantissa, exponentText) := cut (fun c => c = 'e' || c = 'E') body
  let exponent ← match exponentText with
    | none => some 0
    | some t => whole? t
  let (front, back) := cut (· = '.') mantissa
  let before ← side? front
  let after ← side? (back.getD [])
  if before.isEmpty && after.isEmpty then none
  else some (Double.ofDecimal negative (ofDigits (before ++ after)) (exponent - after.length))

end Text
end Rulebook
