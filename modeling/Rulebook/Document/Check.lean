import Rulebook.Term.Equality

/-!
# Checking documents

Checking a document either gives what the document says or lists everything that is wrong with
it, in the order of the fields.  An issue says where it is and of what kind; some kinds come with
a reason.
-/

namespace Rulebook

/-- A step on the way to a part of a document. -/
inductive PathStep where
  | key (name : String)
  | index (n : Int)
deriving DecidableEq, Inhabited

inductive IssueKind where
  | missing
  | textExpected
  | integerExpected
  /-- A text does not write an integer. -/
  | integerUnreadable
  /-- A double has a fraction. -/
  | fractional
  /-- A double is infinite or not a number. -/
  | infinite
  /-- A double is too large to be read as an integer. -/
  | integerTooLarge
  | positiveExpected
  | notAmong
  | modelExpected
  | listExpected
  | keyExpected
  /-- A value has the right type but was rejected, for a reason. -/
  | rejected (reason : String)
deriving DecidableEq, Inhabited

def IssueKind.name : IssueKind → String
  | .missing => "missing"
  | .textExpected => "string_type"
  | .integerExpected => "int_type"
  | .integerUnreadable => "int_parsing"
  | .fractional => "int_from_float"
  | .infinite => "finite_number"
  | .integerTooLarge => "int_parsing_size"
  | .positiveExpected => "greater_than"
  | .notAmong => "enum"
  | .modelExpected => "model_type"
  | .listExpected => "list_type"
  | .keyExpected => "invalid_key"
  | .rejected _ => "value_error"

def IssueKind.reason? : IssueKind → Option String
  | .rejected reason => some ("Value error, " ++ reason)
  | _ => none

/-- Something wrong with a document. -/
structure Issue where
  location : List PathStep
  kind : IssueKind
deriving DecidableEq, Inhabited

/-- The outcome of checking something. -/
abbrev Check (α : Type) := Except (List Issue) α

namespace Check

def issue (kind : IssueKind) : Check α :=
  .error [⟨[], kind⟩]

def issues : Check α → List Issue
  | .ok _ => []
  | .error issues => issues

/-- Checks a part: its issues lie one step further in. -/
def within (step : PathStep) : Check α → Check α
  | .ok value => .ok value
  | .error issues =>
    .error (issues.map fun issue => { issue with location := step :: issue.location })

/-- Combines two checks, with the issues of both. -/
def both : Check α → Check β → Check (α × β)
  | .ok a, .ok b => .ok (a, b)
  | a, b => .error (a.issues ++ b.issues)

def all : List (Check α) → Check (List α)
  | [] => .ok []
  | check :: rest => (both check (all rest)).map fun (value, values) => value :: values

end Check

/-- A field of a mapping, with the name that issues give it. -/
structure Field where
  /-- The names under which the field can be written, the preferred one first. -/
  names : List String

namespace Field

def named (name : String) : Field where
  names := [name]

/-- The name under which a field is written, and its value. -/
def find? (field : Field) (entries : List (Scalar × Term)) : Option (String × Term) :=
  field.names.findSome? fun name => (Entries.find? (.str name) entries).map fun v => (name, v)

def isGiven (field : Field) (entries : List (Scalar × Term)) : Bool :=
  (field.find? entries).isSome

def optional (field : Field) (entries : List (Scalar × Term)) (default : α)
    (check : Term → Check α) : Check α :=
  match field.find? entries with
  | some (name, value) => (check value).within (.key name)
  | none => .ok default

def required (field : Field) (entries : List (Scalar × Term)) (check : Term → Check α) :
    Check α :=
  match field.find? entries with
  | some (name, value) => (check value).within (.key name)
  | none => (Check.issue .missing).within (.key (field.names.headD ""))

end Field

end Rulebook
