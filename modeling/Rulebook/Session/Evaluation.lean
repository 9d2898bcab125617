import Rulebook.Session.Basic

/-!
# Evaluations of a session

Evaluating expressions, and applying, calling and looking into values that are bound in the
environments of a session.
-/

namespace Rulebook
namespace Session

def evaluateUnder (evaluator : EvaluatorId) (expression : Term) (frame : FrameId) :
    SessionM Term := do
  let runner ← runner evaluator
  run (runner.evaluate expression frame)

def evaluate (scope : String) (under : Option String) (expression : Term) : SessionM Term := do
  evaluateUnder (← evaluator under) expression (← environment scope)

def apply (scope : String) (under : Option String) (name : String) (arguments : List Term) :
    SessionM Term := do
  let callee ← run (Run.lookup (← environment scope) name)
  let id ← evaluator under
  let machine := (← get).machine
  run (machine.apply nestingBound id callee arguments)

/-- Calls the value of a name from outside of every evaluation. -/
def call (scope name : String) (arguments : List Term) : SessionM Term := do
  let callee ← run (Run.lookup (← environment scope) name)
  let machine := (← get).machine
  run (machine.run nestingBound (.call callee arguments))

def newClosure (scope : String) (owner : Option String) (name : String) (params : List String)
    (body : Term) : SessionM Term := do
  let frame ← environment scope
  let owner ← match owner with
    | some owner => some <$> evaluator (some owner)
    | none => pure none
  run do Run.define frame name (← Machine.close params body frame owner)

structure ClosureView where
  params : List String
  body : Term
  /-- The name of the environment that it was created in. -/
  home : Option String
  /-- The name of the evaluator that it runs under. -/
  owner : Option String
  text : String

def inspectClosure (scope name : String) : SessionM ClosureView := do
  let value ← run (Run.lookup (← environment scope) name)
  let session ← get
  match value with
  | .closure _ params body home owner =>
    let ownerName := owner.bind fun id =>
      (session.evaluators.find? fun entry => entry.2 = id).map Prod.fst
    let text := Text.hideFrameNumbers (Text.closure params)
    pure { params, body, home := session.nameOf home, owner := ownerName, text }
  | _ => fail .noAttribute

end Session
end Rulebook
