import Rulebook.Condition.Reader
import Rulebook.Document.Basic
import Rulebook.Document.LoadError
import Rulebook.Form.Read
import Rulebook.Rule.Basic
import Rulebook.Yaml.Reader

/-!
# Loading rules

A document of rules comes as a text in YAML or as data.  It is checked as a whole first, and then
its rules are compiled: a text is read as a condition, and anything else is the data form of an
expression.
-/

namespace Rulebook

/-- The data of a document; a text is read as YAML. -/
def documentData : Term → Except LoadError Term
  | .str text => match Yaml.read text with
    | .ok data => .ok data
    | .error .malformed => .error .unreadable
    | .error .valueless => .error .valueless
    | .error .tooLarge => .error .tooLarge
  | data => .ok data

namespace RuleDocument

/-- Loads a document; nothing at all is an empty document. -/
def load (content : Term) : Except LoadError RuleDocument := do
  match ← documentData content with
  | .null => LoadError.ofCheck (ofEntries [])
  | .mapping entries =>
    if Entries.haveTextKeys entries then LoadError.ofCheck (ofEntries entries)
    else .error .keysNotText
  | _ => .error (.mappingExpected .rules)

end RuleDocument

namespace RuleDefinition

def compilePart : Term → Except Malformed Term
  | .str text => Condition.ofTerm (.str text)
  | data => Form.read data

def compile (definition : RuleDefinition) : Except LoadError Rule :=
  let parts := do
    let condition ← compilePart definition.condition
    let action ← compilePart definition.action
    .ok (condition, action)
  match parts with
  | .error problem => .error (.malformed definition.id problem)
  | .ok (condition, action) =>
    .ok { id := definition.id, condition, action, priority := definition.priority
          note := .described definition.metadata }

end RuleDefinition

namespace RuleDocument

/-- Compiles the rules of a document in order; the first that fails decides. -/
def compile (document : RuleDocument) : Except LoadError (List Rule) :=
  document.rules.mapM RuleDefinition.compile

/-- Loads the rules of a document and the settings for them. -/
def loadRules (content : Term) : Except LoadError (List Rule × Settings) := do
  let document ← load content
  .ok (← document.compile, document.settings)

/-- Loads the rules of a file from its text, if there is such a file. -/
def loadRulesFile : Option String → Except LoadError (List Rule × Settings)
  | some text => loadRules (.str text)
  | none => .error .noFile

end RuleDocument

end Rulebook
