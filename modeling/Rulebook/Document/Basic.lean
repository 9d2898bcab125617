import Rulebook.Rule.Metadata
import Rulebook.Settings.Basic

/-!
# Rule documents

A document lists rules and may set up the engine for them.  Here its shape is checked; conditions
and actions are kept as written, to be compiled later.
-/

namespace Rulebook

/-- A rule as it is written in a document. -/
structure RuleDefinition where
  id : String
  condition : Term
  action : Term
  priority : Int := 0
  metadata : Metadata := {}
  /-- The names of the fields that were given explicitly. -/
  given : List String := []
deriving Inhabited

namespace RuleDefinition

/-- A character that the name of a rule can have after its first letter. -/
def isIdChar (c : Char) : Bool :=
  c.isAlphanum || c = '_' || c = '.' || c = '-'

def isPlainId : List Char → Bool
  | [] => false
  | c :: rest => c.isAlpha && rest.all isIdChar

/-- Whether a text can be the name of a rule.  A line break at the end is let through. -/
def isId (text : List Char) : Bool :=
  isPlainId text || (text.getLast? = some '\n' && isPlainId text.dropLast)

def checkId (term : Term) : Check String :=
  match Check.text term with
  | .ok id =>
    if isId id.toList then .ok id
    else Check.issue (.rejected ("Rule id '" ++ id ++
      "' must start with a letter and contain only letters, digits, '_', '.' or '-'"))
  | .error issues => .error issues

def checkPresent : Term → Check Term
  | .null => Check.issue (.rejected "condition and action must not be null")
  | term => .ok term

def fields : List String :=
  ["id", "condition", "action", "priority", "metadata"]

/-- Checks the entries of a rule.  Keys that are no fields are ignored. -/
def ofEntries (entries : List (Scalar × Term)) : Check RuleDefinition :=
  let id := (Field.named "id").required entries checkId
  let condition := (Field.named "condition").required entries checkPresent
  let action := (Field.named "action").required entries checkPresent
  let priority := (Field.named "priority").optional entries 0 Check.integer
  let metadata := (Field.named "metadata").optional entries {} Metadata.ofTerm
  (id.both (condition.both (action.both (priority.both metadata)))).map
    fun (id, condition, action, priority, metadata) =>
      { id, condition, action, priority, metadata
        given := fields.filter fun name => (Field.named name).isGiven entries }

def ofTerm (term : Term) : Check RuleDefinition :=
  match Check.entries term with
  | .ok entries => ofEntries entries
  | .error issues => .error issues

/-- A rule as a mapping, with a name for the error key. -/
def toTerm (rule : RuleDefinition) (errorKeyName : String) : Term :=
  .mapping
    [(.str "id", .str rule.id), (.str "condition", rule.condition), (.str "action", rule.action),
     (.str "priority", .int rule.priority), (.str "metadata", rule.metadata.toTerm errorKeyName)]

def toData (rule : RuleDefinition) (errorKeyName : String) : Term :=
  (rule.toTerm errorKeyName).unfold

end RuleDefinition

/-- A document of rules. -/
structure RuleDocument where
  rules : List RuleDefinition := []
  settings : Settings := {}
  /-- The names of the fields that were given explicitly. -/
  given : List String := []
deriving Inhabited

namespace RuleDocument

/-- The first name that an earlier rule has already. -/
def duplicate? (seen : List String) : List RuleDefinition → Option String
  | [] => none
  | rule :: rest =>
    if seen.contains rule.id then some rule.id else duplicate? (rule.id :: seen) rest

/-- Checks the rules of a document: each one first, and then that their names differ. -/
def checkRules (term : Term) : Check (List RuleDefinition) :=
  match Check.items term with
  | .error issues => .error issues
  | .ok items => match Check.each RuleDefinition.ofTerm items with
    | .error issues => .error issues
    | .ok rules => match duplicate? [] rules with
      | some id => Check.issue (.rejected ("Duplicate rule id: " ++ id))
      | none => .ok rules

/-- Checks the entries of a document.  Keys that are no fields are ignored. -/
def ofEntries (entries : List (Scalar × Term)) : Check RuleDocument :=
  let rules := (Field.named "rules").optional entries [] checkRules
  let settings := (Field.named "engine").optional entries {} Settings.ofTerm
  (rules.both settings).map fun (rules, settings) =>
    { rules, settings
      given := ["rules", "engine"].filter fun name => (Field.named name).isGiven entries }

def toData (document : RuleDocument) (errorKeyName : String) : Term :=
  .mapping
    [(.str "rules", .list (document.rules.map (·.toData errorKeyName))),
     (.str "engine", document.settings.toTerm)]

end RuleDocument

end Rulebook
