import Rulebook.Document.Check
import Rulebook.Text.Blank
import Rulebook.Text.Numeral

/-!
# Checking values

What counts as a text, an integer, a choice and a mapping in a document.  Integers are read
generously: truth values count, and so do doubles without a fraction and texts that write an
integer, with blanks around it, underscores between digits and zeros after a point.
-/

namespace Rulebook
namespace Check

def text : Term → Check String
  | .str s => .ok s
  | _ => issue .textExpected

def textOrNull : Term → Check (Option String)
  | .null => .ok none
  | .str s => .ok (some s)
  | _ => issue .textExpected

/-- White space around an integer; the information separators do not count here. -/
def isSpace (c : Char) : Bool :=
  Text.isBlank c && !(28 ≤ c.toNat && c.toNat ≤ 31)

def trim (text : List Char) : List Char :=
  ((text.dropWhile isSpace).reverse.dropWhile isSpace).reverse

/-- ASCII digits without the single underscores that may separate them. -/
def digits? : List Char → Option (List Char)
  | [] => none
  | [c] => if c.isDigit then some [c] else none
  | c :: '_' :: rest => if c.isDigit then (digits? rest).map (c :: ·) else none
  | c :: rest => if c.isDigit then (digits? rest).map (c :: ·) else none

def natural (digits : List Char) : Nat :=
  digits.foldl (fun n c => 10 * n + (c.toNat - '0'.toNat)) 0

/-- A text without the point and the zeros that it may end with. -/
def withoutFraction? (text : List Char) : Option (List Char) :=
  match text.dropWhile (· ≠ '.') with
  | [] => some text
  | _ :: zeros =>
    if !zeros.isEmpty && zeros.all (· = '0') then some (text.takeWhile (· ≠ '.')) else none

def natural? (text : List Char) : Option Nat := do
  let digits ← digits? text
  if digits.head? = some '0' && 1 < digits.length then none else some (natural digits)

def dropUnderscore : List Char → List Char
  | '_' :: rest => rest
  | text => text

/-- The integer that a text writes.  Among leading zeros there may be any underscores; behind them
there may be a minus sign, unless the text begins with a sign of this kind.  No further zeros lead
the number behind that sign, but one underscore may. -/
def integerText? (text : List Char) : Option Int := do
  let (negative, body) := Text.signed (trim text)
  let body ← withoutFraction? body
  let withSign := fun n : Nat => if negative then -(n : Int) else n
  match body with
  | '0' :: rest =>
    match rest.dropWhile fun c => c = '0' || c = '_' with
    | [] => if rest.getLast? = some '_' then none else some 0
    | '-' :: others =>
      if negative then none else (natural? (dropUnderscore others)).map fun n => -(n : Int)
    | others => (natural? others).map withSign
  | body => (natural? body).map withSign

/-- The number of the integers from zero on that a signed word holds. -/
def wordBound : Int :=
  9223372036854775808

def isWord (n : Int) : Bool :=
  -wordBound ≤ n && n < wordBound

/-- An integer.  Doubles are not read as one if they are too large for a signed word. -/
def integer : Term → Check Int
  | .int n => .ok n
  | .bool b => .ok b.toInt
  | .float x => match Double.magnitude? x with
    | some (.finite _) => match Double.toInt? x with
      | some n => if n.natAbs < wordBound then .ok n else issue .integerTooLarge
      | none => issue .fractional
    | _ => issue .infinite
  | .str s => match integerText? s.toList with
    | some n => .ok n
    | none => issue .integerUnreadable
  | _ => issue .integerExpected

def positiveOrNull : Term → Check (Option Int)
  | .null => .ok none
  | term => match integer term with
    | .ok n => if 0 < n then .ok (some n) else issue .positiveExpected
    | .error issues => .error issues

/-- One of some choices, by its exact name. -/
def choice (choices : List α) (name : α → String) : Term → Check α
  | .str s => match choices.find? fun x => name x = s with
    | some x => .ok x
    | none => issue .notAmong
  | _ => issue .notAmong

def entries : Term → Check (List (Scalar × Term))
  | .mapping entries => .ok entries
  | _ => issue .modelExpected

def items : Term → Check (List Term)
  | .list items => .ok items
  | _ => issue .listExpected

def each (check : Term → Check α) (items : List Term) : Check (List α) :=
  all (items.zipIdx.map fun (item, i) => (check item).within (.index i))

end Check

def Entries.haveTextKeys (entries : List (Scalar × Term)) : Bool :=
  entries.all fun entry => match entry.1 with
    | .str _ => true
    | _ => false

end Rulebook
