import Rulebook.Term.Basic
import Rulebook.Yaml.Timestamp

/-!
# Plain scalars

What a scalar without quotes stands for: the words for `null` and the truth values, numbers, dates
and times, and otherwise the text itself.
-/

namespace Rulebook
namespace Yaml

/-- Why a text is no document. -/
inductive Problem where
  | malformed
  /-- A part has the form of a number, a character or a moment, but there is none that it could
  stand for. -/
  | valueless
  /-- A number is too large to be looked up as a character or to be a double. -/
  | tooLarge
deriving DecidableEq, Inhabited

def nullWords : List String :=
  ["", "~", "null", "Null", "NULL"]

def trueWords : List String :=
  ["yes", "Yes", "YES", "true", "True", "TRUE", "on", "On", "ON"]

def falseWords : List String :=
  ["no", "No", "NO", "false", "False", "FALSE", "off", "Off", "OFF"]

/-- What a scalar without quotes stands for. -/
def resolve (text : List Char) : Except Problem Scalar :=
  let word := String.ofList text
  if nullWords.contains word then .ok .null
  else if trueWords.contains word then .ok (.bool true)
  else if falseWords.contains word then .ok (.bool false)
  else if lacksDigits text then .error .valueless
  else match integer? text with
  | some n => .ok (.int n)
  | none => match double? text with
  | some x => if hasTooManyGroups text then .error .tooLarge else .ok (.float x)
  | none => match timestamp? text with
  | some moment => if moment.isValid then .ok (.moment moment) else .error .valueless
  | none => .ok (.str word)

end Yaml
end Rulebook
