import Rulebook.Evaluation.Evaluator
import Rulebook.Rule.Basic
import Rulebook.Settings.Basic

/-!
# Applying rules

A rule fires when its condition is truthy, and then its action gives its result.  A set of rules is
tried in order, up to the first that gives a result or to the end; a result of `null` counts as
none.  When several results are collected they should agree, and the settings say what happens
when they do not.
-/

namespace Rulebook

/-- A rule that fired, and what its action gave. -/
structure RuleMatch where
  rule : String
  result : Term
  note : RuleNote
deriving Inhabited

structure RuleOutcome where
  success : Bool := true
  found : List RuleMatch := []
  warnings : List String := []
  error : Option String := none
deriving Inhabited

/-- How evaluations run: the machine, the bound on their nesting, and the evaluator. -/
structure Runner where
  machine : Machine
  bound : Nat
  evaluator : EvaluatorId

namespace Runner

def evaluate (runner : Runner) (term : Term) (frame : FrameId) : Run Term :=
  runner.machine.evaluate runner.bound runner.evaluator term frame

/-- Applies a rule: the value of its action if its condition is truthy, and `null` otherwise. -/
def applyRule (runner : Runner) (rule : Rule) (frame : FrameId) : Run Term := do
  let condition ← runner.evaluate rule.condition frame
  if condition.isTruthy then
    Run.log (.ruleFired rule.id)
    runner.evaluate rule.action frame
  else
    Run.log (.rulePassed rule.id)
    pure .null

/-- Applies a rule in a fresh frame that holds the bindings. -/
def applyRuleWith (runner : Runner) (rule : Rule) (frame : FrameId) (bindings : Bindings) :
    Run Term := do
  let scope ← Run.extend (some frame) (bindings.map Prod.fst) (bindings.map Prod.snd)
  runner.applyRule rule scope

/-- Tries rules in order and collects those that give a result, only the first of them or all. -/
def tryRules (runner : Runner) (onlyFirst : Bool) (frame : FrameId) :
    List Rule → Run (List RuleMatch)
  | [] => pure []
  | rule :: rest => do
    let result ← runner.applyRule rule frame
    match result with
    -- A rule that does not fire gives this too, so an action that gives `null` counts for nothing.
    | .null => tryRules runner onlyFirst frame rest
    | result =>
      let found : RuleMatch := { rule := rule.id, result, note := rule.note }
      if onlyFirst then pure [found]
      else
        let others ← tryRules runner onlyFirst frame rest
        pure (found :: others)

end Runner

/-- Whether a later result differs from the first. -/
def RuleMatch.disagree : List RuleMatch → Bool
  | [] => false
  | first :: others => others.any fun other => !other.result.equal first.result

/-- The warning that the first of several rules was taken. -/
def conflictWarning (rules : List String) : String :=
  "Conflicting rules matched: " ++ Fault.ruleList rules ++ ". Using first match: " ++
    rules.headD ""

namespace Runner

def evaluateRules (runner : Runner) (rules : List Rule) (frame : FrameId)
    (strategy : MatchStrategy) (resolution : ConflictResolution) : Run RuleOutcome := do
  let ordered := if strategy = .priority then Rule.byPriority rules else rules
  let found ← runner.tryRules (strategy ≠ .allMatch) frame ordered
  -- A single match cannot disagree, so the resolution matters only when all matches are wanted.
  if RuleMatch.disagree found then
    let names := found.map RuleMatch.rule
    match resolution with
    | .error => Run.fail (.conflict names)
    | .warn =>
      Run.log (.conflictWarned names)
      pure { found, warnings := [conflictWarning names] }
    | .firstWins => pure { found }
  else pure { found }

end Runner

namespace RuleMatch

/-- A match as a mapping; only checked metadata can be shown. -/
def toTerm (found : RuleMatch) : Except Fault Term :=
  match found.note with
  | .described metadata => .ok (.mapping
      [(.str "rule_id", .str found.rule), (.str "result", found.result),
       (.str "metadata", metadata.toTerm "error_key")])
  | .bare _ => .error .noAttribute

end RuleMatch

namespace RuleOutcome

def first? (outcome : RuleOutcome) : Option RuleMatch :=
  outcome.found.head?

def toTerm (outcome : RuleOutcome) : Except Fault Term := do
  let found ← outcome.found.mapM RuleMatch.toTerm
  .ok (.mapping
    [(.str "success", .bool outcome.success), (.str "matches", .list found),
     (.str "matched_count", .int found.length), (.str "first_match", found.headD .null),
     (.str "warnings", .list (outcome.warnings.map Term.str)),
     (.str "error", (outcome.error.map Term.str).getD .null)])

end RuleOutcome

end Rulebook
