import Rulebook.Term.Display
import Rulebook.Text.FrameNumber

/-!
# Malformed expressions

Why a text or a piece of data is not an expression, and how that is said.
-/

namespace Rulebook

/-- Why something is not an expression. -/
inductive Malformed where
  | conditionNotText (got : Term)
  | emptyCondition
  | missingOperand
  /-- A keyword has nothing on one of its sides. -/
  | missingAround (keyword text : String)
  | unreadable (text : String)
  | nameExpected (got : Term)
  /-- The payload of a tag is not a list of one of the sizes. -/
  | itemsExpected (tag : String) (sizes : List Nat) (got : Term)
  | operandsExpected (got : Term)
  | parametersExpected (got : Term)
  | targetExpected (tag : String) (got : Term)
  | sequenceExpected (got : Term)
  | duplicateParameter (params : List String)
  | emptySequence
deriving Inhabited

namespace Malformed

def text : Malformed → String
  | .conditionNotText got => "Expected string condition, got " ++ got.typeName
  | .emptyCondition => "Empty condition"
  | .missingOperand => "Missing operand"
  | .missingAround keyword text =>
    "Missing operand around " ++ keyword ++ " in " ++ Text.quoted text
  | .unreadable text => "Cannot parse operand: " ++ Text.quoted text
  | .nameExpected got => "'var' expects a name, got " ++ got.display
  | .itemsExpected tag sizes got =>
    "'" ++ tag ++ "' expects a list of " ++ " or ".intercalate (sizes.map toString) ++
      " item(s), got " ++ got.display
  | .operandsExpected got => "'apply' operands must be a list, got " ++ got.display
  | .parametersExpected got =>
    "'lambda' parameters must be a list of names, got " ++ got.display
  | .targetExpected tag got => "'" ++ tag ++ "' target must be a name, got " ++ got.display
  | .sequenceExpected got => "'begin' expects a list, got " ++ got.display
  | .duplicateParameter params =>
    "Duplicate lambda parameter in " ++ Text.parenthesized (params.map Text.quoted)
  | .emptySequence => "Sequence requires at least one expression"

/-- The term that is shown in what is said. -/
def subject? : Malformed → Option Term
  | .nameExpected got | .itemsExpected _ _ got | .operandsExpected got | .parametersExpected got
  | .targetExpected _ got | .sequenceExpected got => some got
  | _ => none

/-- What is said about a malformed expression, unless it would show what messages cannot show. -/
def shownText? (problem : Malformed) : Option String :=
  if (problem.subject?.map Term.isShown).getD true then some problem.text else none

def message? (problem : Malformed) : Option String :=
  problem.shownText?.map Text.hideFrameNumbers

end Malformed

end Rulebook
