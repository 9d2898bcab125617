import Rulebook.Term.Moment
import Rulebook.Yaml.Cursor
import Rulebook.Yaml.Numeral

/-!
# Timestamps

A date is written with four digits for the year and two for month and day.  A time follows its date
behind a letter or blanks; it may have a fraction of a second and a distance from universal time.
-/

namespace Rulebook
namespace Yaml

/-- The number that up to `most` digits at the front of a text write, and what follows them; there
have to be at least `least`. -/
def digitRun (least most : Nat) (text : List Char) : Option (Nat × List Char) :=
  let digits := (text.take most).takeWhile Char.isDigit
  if digits.length < least then none else some (number 10 digits, text.drop digits.length)

def expectSign (sign : Char) : List Char → Option (List Char)
  | c :: rest => if c = sign then some rest else none
  | [] => none

/-- What follows the letter or the blanks between a date and its time. -/
def timeStart : List Char → Option (List Char)
  | c :: rest =>
    if c = 'T' || c = 't' then some rest
    else if isBlank c then some (rest.dropWhile isBlank)
    else none
  | [] => none

/-- The microseconds of a fraction, if there is one, and what follows it. -/
def fraction : List Char → Nat × List Char
  | '.' :: rest =>
    let digits := rest.takeWhile Char.isDigit
    (number 10 ((digits ++ List.replicate 6 '0').take 6), rest.drop digits.length)
  | text => (0, text)

/-- The distance from universal time that a text writes, in minutes. -/
def offset? : List Char → Option (Option Int)
  | [] => some none
  | text => match text.dropWhile isBlank with
    | ['Z'] => some (some 0)
    | sign :: rest => do
      if sign ≠ '+' && sign ≠ '-' then none
      let (hours, rest) ← digitRun 1 2 rest
      let minutes ← match rest with
        | [] => some 0
        | ':' :: rest => match ← digitRun 2 2 rest with
          | (minutes, []) => some minutes
          | _ => none
        | _ => none
      let distance : Int := 60 * hours + minutes
      some (some (if sign = '-' then -distance else distance))
    | [] => none

/-- The moment that a text has the form of, whether or not there is such a moment. -/
def timestamp? (text : List Char) : Option Moment := do
  let (year, rest) ← digitRun 4 4 text
  let (month, rest) ← digitRun 1 2 (← expectSign '-' rest)
  let (day, rest) ← digitRun 1 2 (← expectSign '-' rest)
  if rest.isEmpty then if text.length = 10 then some (.date year month day) else none
  else do
    let (hour, rest) ← digitRun 1 2 (← timeStart rest)
    let (minute, rest) ← digitRun 2 2 (← expectSign ':' rest)
    let (second, rest) ← digitRun 2 2 (← expectSign ':' rest)
    let (microsecond, rest) := fraction rest
    let offset ← offset? rest
    some (.time year month day hour minute second microsecond offset)

end Yaml
end Rulebook
