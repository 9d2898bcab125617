/-!
# Scanning a condition

A condition is never cut inside a quoted text or inside parentheses.  The scan reads a text from
left to right and remembers just two things: which quote is open, and how many parentheses are.
The depth may fall below zero, in a text that closes more than it opens.
-/

namespace Rulebook
namespace Condition

def isQuote (c : Char) : Bool :=
  c = '\'' || c = '"'

/-- What is open at a place of a text. -/
structure Scan where
  quote : Option Char
  depth : Int
deriving DecidableEq

def Scan.start : Scan where
  quote := none
  depth := 0

def Scan.step (scan : Scan) (c : Char) : Scan :=
  match scan.quote with
  | some q => if c = q then { scan with quote := none } else scan
  | none =>
    if isQuote c then { scan with quote := some c }
    else if c = '(' then { scan with depth := scan.depth + 1 }
    else if c = ')' then { scan with depth := scan.depth - 1 }
    else scan

def Scan.after (scan : Scan) (text : List Char) : Scan :=
  text.foldl Scan.step scan

/-- Whether a character stands outside quotes and at depth zero.  A parenthesis counts to the
level that it opens or closes from, and a quote to no level. -/
def Scan.isTop (scan : Scan) (c : Char) : Bool :=
  scan.quote.isNone && !isQuote c && (if c = ')' then scan.depth - 1 else scan.depth) = 0

@[simp] theorem Scan.after_nil (scan : Scan) : scan.after [] = scan := rfl

@[simp] theorem Scan.after_cons (scan : Scan) (c : Char) (text : List Char) :
    scan.after (c :: text) = (scan.step c).after text := rfl

theorem Scan.after_append (scan : Scan) (front back : List Char) :
    scan.after (front ++ back) = (scan.after front).after back := by
  simp [Scan.after, List.foldl_append]

end Condition
end Rulebook
