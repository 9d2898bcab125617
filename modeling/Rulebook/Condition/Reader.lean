import Rulebook.Condition.Split
import Rulebook.Malformed
import Rulebook.Text.Blank
import Rulebook.Text.Numeral

/-!
# Reading a condition

A condition is read by cutting it, loosest operator first: at `OR`, then at `AND`, then `NOT` is
taken off the front, then one comparison is cut, and what is left is an operand.  Only an operand
in parentheses and the arguments of a call are conditions again, and these are shorter, which
bounds the reading by the length of the text.
-/

namespace Rulebook
namespace Condition

/-- The comparisons in the order in which they are looked for, with the operators that they name.
The longer ones come first, so that `<=` is not cut as `<`. -/
def comparisons : List (List Char × String) :=
  [(['<', '='], "<="), (['>', '='], ">="), (['!', '='], "!="), (['=', '='], "="),
   (['<'], "<"), (['>'], ">")]

def beginsName (c : Char) : Bool :=
  c.isAlpha || c = '_'

def isCallNameChar (c : Char) : Bool :=
  c.isAlphanum || c = '_' || c = '?' || c = '-'

def isVariableChar (c : Char) : Bool :=
  isCallNameChar c || c = '.'

def isVariableName : List Char → Bool
  | [] => false
  | c :: rest => beginsName c && rest.all isVariableChar

def isCallName : List Char → Bool
  | [] => false
  | c :: rest => beginsName c && rest.all isCallNameChar

/-- The name and the arguments of a call, if the text is one. -/
def call? (text : List Char) : Option (List Char × List Char) :=
  let name := text.takeWhile (· ≠ '(')
  let rest := text.dropWhile (· ≠ '(')
  if isCallName name && wraps rest then some (name, (rest.drop 1).dropLast) else none

/-- The content of a quoted text: it begins and ends with the same quote. -/
def quotedContent? (text : List Char) : Option (List Char) :=
  match text with
  | c :: rest =>
    if isQuote c && !rest.isEmpty && rest.getLast? = some c then some rest.dropLast else none
  | [] => none

/-- The number that an operand writes; a point makes it a double. -/
def number? (text : List Char) : Option Term :=
  if text.contains '.' then (Text.decimal? text).map Term.float
  else (Text.whole? text).map Term.int

/-- The constant that an operand names, in any case. -/
def constant? (text : List Char) : Option Term :=
  let word := String.ofList (text.map Char.toLower)
  if word = "true" then some (.bool true)
  else if word = "false" then some (.bool false)
  else if word = "null" || word = "none" then some .null
  else none

/-- Reads an operand; `nested` reads a condition inside it. -/
def readOperand (nested : List Char → Except Malformed Term) (text : List Char) :
    Except Malformed Term :=
  let text := Text.strip text
  if text.isEmpty then .error .missingOperand
  else if text.head? = some '(' && wraps text then
    nested (Text.strip (text.drop 1).dropLast)
  -- The first form that fits decides, so that `none` is a constant and no variable.
  else match quotedContent? text with
  | some content => .ok (.str (String.ofList content))
  | none => match number? text with
  | some number => .ok number
  | none => match constant? text with
  | some constant => .ok constant
  | none => match call? text with
  | some (name, arguments) => do
    let arguments := Text.strip arguments
    let operands ←
      if arguments.isEmpty then .ok []
      else (splitCommas arguments).mapM fun argument => nested (Text.strip argument)
    .ok (.call (String.ofList name) operands)
  | none =>
    if isVariableName text then .ok (.variable (String.ofList text))
    else .error (.unreadable (String.ofList text))

/-- The first comparison, in the order of `comparisons`, that a text has. -/
def comparison? (text : List Char) : Option (String × List Char × List Char) :=
  comparisons.findSome? fun (symbol, operator) =>
    (cutSymbol? symbol text).map fun (left, right) => (operator, left, right)

/-- Reads a comparison of two operands, or an operand alone. -/
def readComparison (nested : List Char → Except Malformed Term) (text : List Char) :
    Except Malformed Term :=
  match comparison? text with
  | some (operator, left, right) => do
    let a ← readOperand nested left
    let b ← readOperand nested right
    .ok (.call operator [a, b])
  | none => readOperand nested text

/-- Whether a text begins with `NOT` before a space or a parenthesis. -/
def beginsNot (text : List Char) : Bool :=
  beginsWith ['N', 'O', 'T', ' '] text || beginsWith ['N', 'O', 'T', '('] text

/-- How many `NOT`s, at most `bound`, stand in front of a text, and what follows them. -/
def takeNots : Nat → List Char → Nat × List Char
  | 0, text => (0, Text.strip text)
  | bound + 1, text =>
    let text := Text.strip text
    if beginsNot text then
      -- What follows the word stays: a parenthesis there belongs to the operand.
      let (count, rest) := takeNots bound (text.drop 3)
      (count + 1, rest)
    else (0, text)

def negated : Nat → Term → Term
  | 0, term => term
  | count + 1, term => .call "not" [negated count term]

def readNegation (nested : List Char → Except Malformed Term) (text : List Char) :
    Except Malformed Term := do
  let (count, rest) := takeNots text.length text
  let term ← readComparison nested rest
  .ok (negated count term)

/-- Reads what stands between the places of a keyword: one part alone stays what it is, several
are joined by an operator. -/
def readJoined (keyword : Keyword) (operator : String)
    (part : List Char → Except Malformed Term) (text : List Char) : Except Malformed Term :=
  match keyword.split text with
  | [_] => part text
  | parts =>
    if parts.any fun p => (Text.strip p).isEmpty then
      .error (.missingAround (String.ofList keyword.text) (String.ofList text))
    else do
      let operands ← parts.mapM fun p => part (Text.strip p)
      .ok (.call operator operands)

def readConjunction (nested : List Char → Except Malformed Term) :
    List Char → Except Malformed Term :=
  readJoined .and "and" (readNegation nested)

def readDisjunction (nested : List Char → Except Malformed Term) :
    List Char → Except Malformed Term :=
  readJoined .or "or" (readConjunction nested)

def readWithin : Nat → List Char → Except Malformed Term
  | 0, text => .error (.unreadable (String.ofList text))
  | bound + 1, text => readDisjunction (readWithin bound) text

/-- Reads a condition.  Each nested one is shorter, so the length of the text is bound enough. -/
def read (text : List Char) : Except Malformed Term :=
  let text := Text.strip text
  if text.isEmpty then .error .emptyCondition else readWithin (text.length + 1) text

/-- Reads a condition that is given as a term: a text, or a truth value, which stands for
itself. -/
def ofTerm : Term → Except Malformed Term
  | .bool b => .ok (.bool b)
  | term => match term.text? with
    | some text => read text.toList
    | none => .error (.conditionNotText term)

def validate (condition : Term) : Bool × Option String :=
  match ofTerm condition with
  | .ok _ => (true, none)
  | .error problem => (false, some problem.text)

end Condition
end Rulebook
