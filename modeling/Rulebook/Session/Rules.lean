import Rulebook.Document.Load
import Rulebook.Session.Evaluation

/-!
# Rules of a session

Building, applying and evaluating rules, by themselves or through the engine of the session.
-/

namespace Rulebook
namespace Session

/-- A rule with a name: one that the session remembers, or one of lending. -/
def rule (id : String) : SessionM Rule := do
  -- Of several rules with the name, the one that was remembered last counts.
  match Rule.find? ((← get).rules.reverse ++ Lending.rules) id with
  | some rule => pure rule
  | none => fail .noKey

def buildRule (id : String) (condition action : Term) (priority : Int) (metadata : Option Term) :
    SessionM Rule := do
  let condition ← expect (Form.read condition)
  let action ← expect (Form.read action)
  let note ← match metadata with
    | some metadata => accept (RuleNote.ofTerm metadata)
    | none => pure (.described {})
  pure { id, condition, action, note, priority }

def remember (rule : Rule) : SessionM Unit :=
  modify fun session => { session with rules := session.rules ++ [rule] }

/-- The evaluator that rules run under: the one with a name, or a fresh one without a limit. -/
def ruleEvaluator : Option String → SessionM EvaluatorId
  | some name => evaluator (some name)
  | none => addEvaluator none

def applyRule (scope : String) (under : Option String) (rule : Rule) : SessionM Term := do
  let runner ← runner (← ruleEvaluator under)
  run (runner.applyRule rule (← environment scope))

def applyRuleWith (scope : String) (under : Option String) (rule : Rule) (bindings : Bindings) :
    SessionM Term := do
  let runner ← runner (← ruleEvaluator under)
  run (runner.applyRuleWith rule (← environment scope) bindings)

def choice (choices : List α) (name : α → String) (term : Term) : SessionM α :=
  match Check.choice choices name term with
  | .ok choice => pure choice
  | .error _ => throw .unknownChoice

def outcomeTerm (outcome : RuleOutcome) : SessionM Term :=
  run (Run.ofExcept outcome.toTerm)

/-- Evaluates a set of rules, those that are remembered if none are given. -/
def evaluateRules (scope : String) (under : Option String) (rules : Option (List Rule))
    (strategy resolution : Term) : SessionM Term := do
  let runner ← runner (← ruleEvaluator under)
  let strategy ← choice MatchStrategy.all MatchStrategy.name strategy
  let resolution ← choice ConflictResolution.all ConflictResolution.name resolution
  let rules := rules.getD (← get).rules
  outcomeTerm (← run (runner.evaluateRules rules (← environment scope) strategy resolution))

/-- Makes an engine the one of the session.  A level of logging that its settings give explicitly
becomes the level of the journal. -/
def installEngine (rules : List Rule) (settings : Settings) : SessionM Unit := do
  let id ← addEvaluator settings.maxDepth
  modify fun session => { session with
    engine := some { rules, settings, evaluator := id }
    journal := if settings.given.contains .logLevel then
        { session.journal with level := settings.logLevel.rank }
      else session.journal }

def settingsOf : Term → SessionM Settings
  | .null => pure {}
  | .mapping entries => accept (Settings.ofEntries entries)
  | _ => fail .noAttribute

def newEngine (rules : List Rule) (config : Term) : SessionM Settings := do
  let settings ← settingsOf config
  installEngine rules settings
  pure settings

def loadEngine (content : Term) : SessionM (List Rule × Settings) := do
  let (rules, settings) ← loaded (RuleDocument.loadRules content)
  installEngine rules settings
  pure (rules, settings)

def currentEngine : SessionM Engine := do
  match (← get).engine with
  | some engine => pure engine
  | none => fail .noAttribute

def addToEngine (rule : Rule) : SessionM (List String) := do
  let engine := (← currentEngine).addRule rule
  modify fun session => { session with engine := some engine }
  pure (engine.rules.map Rule.id)

def engineRule? (id : String) : SessionM (Option Rule) := do
  pure ((← currentEngine).rule? id)

def engineApply (scope id : String) (bindings : Bindings) : SessionM Term := do
  let engine ← currentEngine
  let machine := (← get).machine
  run (engine.apply machine nestingBound id (← environment scope) bindings)

def engineEvaluate (scope : String) (bindings : Bindings) : SessionM Term := do
  let engine ← currentEngine
  let machine := (← get).machine
  outcomeTerm (← run (engine.evaluate machine nestingBound (← environment scope) bindings))

def engineFind (scope : String) (bindings : Bindings) : SessionM Term := do
  let engine ← currentEngine
  let machine := (← get).machine
  run (engine.findApplicable machine nestingBound (← environment scope) bindings)

def engineExpression (scope : String) (expression : Term) : SessionM Term := do
  evaluateUnder (← currentEngine).evaluator expression (← environment scope)

end Session
end Rulebook
