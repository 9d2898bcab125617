import Rulebook.Document.Check
import Rulebook.Malformed

/-!
# Errors of loading

Why a document cannot be loaded.  The first group are faults of the document; the second say that
what was passed in place of a document cannot even be looked at as one.
-/

namespace Rulebook

inductive DocumentKind where
  | rules
  | settings
deriving DecidableEq, Inhabited

def DocumentKind.title : DocumentKind → String
  | .rules => "Rule document"
  | .settings => "Configuration"

/-- Why a document cannot be loaded. -/
inductive LoadError where
  | unreadable
  | mappingExpected (kind : DocumentKind)
  | invalid (issues : List Issue)
  | malformed (rule : String) (problem : Malformed)
  /-- Some key at the top is not a text. -/
  | keysNotText
  /-- The value is neither a mapping nor a list of pairs. -/
  | pairsExpected
  /-- An item of a list of pairs has not two parts. -/
  | unpaired
  | noFile
  /-- A number, character or moment in the text has no value. -/
  | valueless
  /-- A number in the text is too large. -/
  | tooLarge
deriving Inhabited

def LoadError.message? : LoadError → Option String
  | .unreadable => some "Invalid YAML"
  | .mappingExpected kind => some (kind.title ++ " must be a mapping")
  | .malformed rule problem =>
    problem.shownText?.map fun text => Text.hideFrameNumbers ("Rule " ++ rule ++ ": " ++ text)
  | _ => none

def LoadError.ofCheck : Check α → Except LoadError α
  | .ok value => .ok value
  | .error issues => .error (.invalid issues)

end Rulebook
