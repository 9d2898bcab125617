import Rulebook.Rule.Metadata

/-!
# Rules

A rule is a condition and an action, two expressions that are evaluated in the same frame.  A rule
has no state, so it can be applied any number of times.
-/

namespace Rulebook

/-- What a rule carries as metadata: a checked description, or a value that describes nothing. -/
inductive RuleNote where
  | described (metadata : Metadata)
  | bare (value : Term)
deriving Inhabited

structure Rule where
  id : String
  condition : Term
  action : Term
  note : RuleNote := .described {}
  priority : Int := 0
deriving Inhabited

namespace RuleNote

/-- The note made from a term: a mapping is checked as metadata, anything else is kept. -/
def ofTerm : Term → Check RuleNote
  | .mapping entries => (Metadata.ofEntries entries).map RuleNote.described
  | value => .ok (.bare value)

def toTerm : RuleNote → Term
  | .described metadata => metadata.toTerm "error_key"
  | .bare value => value

end RuleNote

namespace Rule

/-- Puts a rule before those whose priority is not higher. -/
def insertByPriority (rule : Rule) : List Rule → List Rule
  | [] => [rule]
  | other :: rest =>
    if other.priority ≤ rule.priority then rule :: other :: rest
    else other :: insertByPriority rule rest

/-- Rules by falling priority; those of equal priority stay in order. -/
def byPriority : List Rule → List Rule
  | [] => []
  | rule :: rest => insertByPriority rule (byPriority rest)

def find? (rules : List Rule) (id : String) : Option Rule :=
  rules.find? fun rule => rule.id = id

def toTerm (rule : Rule) : Term :=
  .mapping
    [(.str "id", .str rule.id), (.str "condition", rule.condition), (.str "action", rule.action),
     (.str "priority", .int rule.priority), (.str "metadata", rule.note.toTerm)]

end Rule

end Rulebook
