import Rulebook.Condition.Scan
import Rulebook.Text.Alphanumeric

/-!
# Cutting a condition

The cuts that reading a condition needs, all of them outside quotes and parentheses: at a keyword
that stands alone as a word, at a comma, and at the first occurrence of a comparison.
-/

namespace Rulebook
namespace Condition

/-- The keywords that join conditions. -/
inductive Keyword where
  | or
  | and
deriving DecidableEq

def Keyword.text : Keyword → List Char
  | .or => ['O', 'R']
  | .and => ['A', 'N', 'D']

/-- Whether a text begins with a word, whose letters are given in upper case. -/
def beginsWith (word text : List Char) : Bool :=
  (text.take word.length).map Char.toUpper = word

def isNameChar (c : Char) : Bool :=
  Text.isAlphanumeric c || c = '_' || c = '-' || c = '?' || c = '.'

/-- Whether a text has no name character at its front. -/
def endsWord : List Char → Bool
  | [] => true
  | c :: _ => !isNameChar c

/-- Whether a keyword stands here: outside quotes and parentheses, with no name character before
or after it. -/
def Keyword.standsAt (keyword : Keyword) (scan : Scan) (before : Option Char) :
    List Char → Bool
  | [] => false
  | c :: rest =>
    scan.isTop c && beginsWith keyword.text (c :: rest) && !before.any isNameChar &&
      endsWord ((c :: rest).drop keyword.text.length)

/-- Cuts at every place where a keyword stands.  `skip` counts the letters of a keyword that are
still to be passed over, `part` is the current part in reverse. -/
def Keyword.splitFrom (keyword : Keyword) (skip : Nat) (scan : Scan) (before : Option Char)
    (part : List Char) : List Char → List (List Char)
  | [] => [part.reverse]
  | c :: rest =>
    match skip with
    | skip + 1 => keyword.splitFrom skip (scan.step c) (some c) part rest
    | 0 =>
      -- The letters behind the first are only passed over, but the scan still goes through them.
      if keyword.standsAt scan before (c :: rest) then
        part.reverse ::
          keyword.splitFrom (keyword.text.length - 1) (scan.step c) (some c) [] rest
      else keyword.splitFrom 0 (scan.step c) (some c) (c :: part) rest

def Keyword.split (keyword : Keyword) (text : List Char) : List (List Char) :=
  keyword.splitFrom 0 .start none [] text

/-- Cuts at every comma outside quotes and parentheses. -/
def splitCommasFrom (scan : Scan) (part : List Char) : List Char → List (List Char)
  | [] => [part.reverse]
  | c :: rest =>
    if c = ',' && scan.isTop c then part.reverse :: splitCommasFrom (scan.step c) [] rest
    else splitCommasFrom (scan.step c) (c :: part) rest

def splitCommas (text : List Char) : List (List Char) :=
  splitCommasFrom .start [] text

/-- Whether a comparison stands at the front of a text.  A single character does not stand before
an equals sign, with which it would be another comparison. -/
def symbolStands (symbol text : List Char) : Bool :=
  symbol.isPrefixOf text &&
    !(symbol.length = 1 && (text.drop 1).head? = some '=')

/-- Cuts at the first comparison outside quotes and parentheses. -/
def cutSymbolFrom (symbol : List Char) (scan : Scan) (front : List Char) :
    List Char → Option (List Char × List Char)
  | [] => none
  | c :: rest =>
    if scan.isTop c && symbolStands symbol (c :: rest) then
      some (front.reverse, (c :: rest).drop symbol.length)
    else cutSymbolFrom symbol (scan.step c) (c :: front) rest

def cutSymbol? (symbol text : List Char) : Option (List Char × List Char) :=
  cutSymbolFrom symbol .start [] text

/-- Whether the last character, and no other, closes a parenthesis to depth zero. -/
def wrapsFrom (scan : Scan) : List Char → Bool
  | [] => false
  | [c] => c = ')' && scan.isTop c
  | c :: rest => !(c = ')' && scan.isTop c) && wrapsFrom (scan.step c) rest

/-- Whether a parenthesis opened at the start of a text closes at its very end. -/
def wraps (text : List Char) : Bool :=
  wrapsFrom .start text

end Condition
end Rulebook
