import Rulebook.Rule.Application

/-!
# Rule engines

An engine holds rules, settings, and an evaluator of its own, whose limit comes from the settings.
Bindings that are passed to it are held in a fresh frame; without any, rules are evaluated in the
given frame itself.
-/

namespace Rulebook

structure Engine where
  rules : List Rule
  settings : Settings
  evaluator : EvaluatorId
deriving Inhabited

namespace Engine

def addRule (engine : Engine) (rule : Rule) : Engine :=
  { engine with rules := engine.rules ++ [rule] }

def rule? (engine : Engine) (id : String) : Option Rule :=
  Rule.find? engine.rules id

def runner (engine : Engine) (machine : Machine) (bound : Nat) : Runner where
  machine := machine
  bound := bound
  evaluator := engine.evaluator

def apply (engine : Engine) (machine : Machine) (bound : Nat) (id : String) (frame : FrameId)
    (bindings : Bindings) : Run Term :=
  match engine.rule? id with
  | none => Run.fail (.unknownRule id)
  | some rule =>
    if bindings.isEmpty then (engine.runner machine bound).applyRule rule frame
    else (engine.runner machine bound).applyRuleWith rule frame bindings

/-- The frame that rules are evaluated in. -/
def scope (frame : FrameId) (bindings : Bindings) : Run FrameId :=
  if bindings.isEmpty then pure frame
  else Run.extend (some frame) (bindings.map Prod.fst) (bindings.map Prod.snd)

/-- Evaluates all rules.  A conflict is reported in the outcome. -/
def evaluate (engine : Engine) (machine : Machine) (bound : Nat) (frame : FrameId)
    (bindings : Bindings) : Run RuleOutcome := do
  let frame ← scope frame bindings
  let outcome ← Run.observe ((engine.runner machine bound).evaluateRules engine.rules frame
    engine.settings.matchStrategy engine.settings.conflictResolution)
  match outcome with
  | .ok outcome => pure outcome
  -- The matches are given up, but what the rules have done to the store stays.
  | .error (.conflict names) =>
    Run.log (.conflictReported names)
    pure { success := false, error := some (Fault.conflictText names) }
  | .error fault => Run.fail fault

/-- The result of the first rule that gives one, or `null`. -/
def findApplicable (engine : Engine) (machine : Machine) (bound : Nat) (frame : FrameId)
    (bindings : Bindings) : Run Term := do
  let outcome ← engine.evaluate machine bound frame bindings
  if outcome.success then pure ((outcome.first?.map RuleMatch.result).getD .null)
  else pure .null

end Engine

end Rulebook
