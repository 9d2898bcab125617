import Rulebook.Text.DecimalDigit

/-!
# Frame numbers

Frames are numbered where they happen to be, so a number of a frame in a message says nothing.
Messages show a sign in place of every such number.
-/

namespace Rulebook
namespace Text

/-- What stands before the number of a frame, from the last character to the first. -/
def frameMark : List Char :=
  "env_id=".toList.reverse

def isDecimalDigit (c : Char) : Bool :=
  (digitValue? c).isSome

/-- Hides numbers along a text; `before` is what was read, in reverse, and `inNumber` says whether that
ends inside of a hidden number. -/
def hideAlong (inNumber : Bool) (before : List Char) : List Char → List Char
  | [] => []
  | c :: rest =>
    if isDecimalDigit c && inNumber then hideAlong true before rest
    else if isDecimalDigit c && frameMark.isPrefixOf before then '#' :: hideAlong true [] rest
    else c :: hideAlong false (c :: before) rest

/-- A text with a sign in place of every number of a frame. -/
def hideFrameNumbers (text : String) : String :=
  String.ofList (hideAlong false [] text.toList)

end Text
end Rulebook
