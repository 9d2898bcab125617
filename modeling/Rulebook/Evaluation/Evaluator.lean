import Rulebook.Evaluation.Method
import Rulebook.Primitive.Core

/-!
# Evaluation

Evaluating a node, applying a value to arguments and calling back from a host function are three
kinds of task.  `step` says what a task does in terms of smaller tasks, and `run` repeats `step` up
to a bound on how deep tasks nest; a larger bound never changes a run that was finished.

Every evaluator counts the nodes that it is nested in and may have a limit.  Nodes inside a closure
that a host function calls back count on from the application of the host function, by the
evaluator that created the closure.
-/

namespace Rulebook

/-- What an evaluation depends on besides the store. -/
structure Machine where
  host : HostLibrary
  limit : EvaluatorId → Option Int

/-- A task of an evaluation. -/
inductive Task where
  /-- Evaluates a term in a frame, nested in a number of nodes. -/
  | eval (evaluator : EvaluatorId) (term : Term) (frame : FrameId) (depth : Nat)
  /-- Applies a value to arguments, nested in a number of nodes. -/
  | apply (evaluator : EvaluatorId) (callee : Term) (arguments : List Term) (depth : Nat)
  /-- Calls a value from a host function. -/
  | call (callee : Term) (arguments : List Term)

/-- The evaluator without a limit that closures without an owner run under. -/
def defaultEvaluator : EvaluatorId := 0

namespace Machine

def exceeds (machine : Machine) (evaluator : EvaluatorId) (depth : Nat) : Option Int :=
  (machine.limit evaluator).filter fun limit => limit < depth

def close (params : List String) (body : Term) (home : FrameId) (owner : Option EvaluatorId) :
    Run Term := do
  let store ← get
  set ({ store with closures := store.closures + 1 }.log (.closureCreated params))
  pure (.closure store.closures params body home owner)

def evaluatorAttributes (machine : Machine) (store : Store) (evaluator : EvaluatorId) :
    List (String × Term) :=
  [("max_depth", ((machine.limit evaluator).map Term.int).getD .null),
   ("_callback_depth", .int (store.callbackDepth evaluator))] ++
  [EvaluatorMethod.evaluate, EvaluatorMethod.apply].map fun method =>
    (method.name, .primitive (.method (.evaluator method evaluator)))

/-- A term that can be asked for properties: an environment or an evaluator shows its state as a
record. -/
def opened (machine : Machine) (store : Store) : Term → Term
  | .scope frame => .record .plain (Term.fieldsOf (store.scopeAttributes frame))
  | .evaluator id => .record .plain (Term.fieldsOf (machine.evaluatorAttributes store id))
  | term => term

/-- Applies a core operation.  Only what asks for properties looks into its first operand. -/
def applyCore (machine : Machine) (operation : CorePrimitive) (operands : List Term) :
    Run Term := do
  let store ← get
  -- Environments and evaluators have their state in the store, which the operation does not see.
  let operands := match operation, operands with
    | .hasProperty, term :: rest | .getProperty, term :: rest => machine.opened store term :: rest
    | _, operands => operands
  Run.ofExcept (operation.apply operands)

def refuse (value : Term) : Run Term := do
  Run.fail (.notApplicable ((← get).display? value))

/-- Calls a method of an evaluator.  It goes on at the depth of the host call that the evaluator is
inside. -/
def callEvaluator (self : Task → Run Term) (evaluator : EvaluatorId) :
    EvaluatorMethod → List Term → Run Term
  | .evaluate, [term, scope] => do
    let depth := (← get).callbackDepth evaluator
    match scope with
    | .scope frame => self (.eval evaluator term frame depth)
    -- What is no node evaluates to itself, so it does not matter that this is no environment.
    | _ => if term.isNode then Run.fail .noAttribute else pure term
  | .apply, [callee, arguments] => do
    if callee.isCallable then
      let depth := (← get).callbackDepth evaluator
      self (.apply evaluator callee (← Run.itemsOf arguments) depth)
    else refuse callee
  | _, _ => Run.fail .unfit

def callMethod (self : Task → Run Term) : Method → List Term → Run Term
  | .scope method frame, arguments => Run.callScope frame method arguments
  | .evaluator method evaluator, arguments => callEvaluator self evaluator method arguments
  | .bind _ params home, arguments => Run.bindArguments params home arguments

def applyPrimitive (machine : Machine) (self : Task → Run Term) (callable : Primitive)
    (arguments : List Term) : Run Term :=
  match callable with
  | .core operation => machine.applyCore operation arguments
  | .host name =>
    Run.ofProgram (fun callee arguments => self (.call callee arguments))
      (machine.host name arguments)
  | .method method => callMethod self method arguments

/-- Evaluates a node at a depth within the limit; its parts are one deeper. -/
def stepNode (self : Task → Run Term) (evaluator : EvaluatorId) (frame : FrameId) (depth : Nat) :
    Term → Run Term
  | .variable name => Run.lookup frame name
  | .quoted value => pure value
  | .assignment target value => do
    let value ← self (.eval evaluator value frame (depth + 1))
    Run.assign frame target value
  | .definition target value => do
    let value ← self (.eval evaluator value frame (depth + 1))
    Run.define frame target value
  | .conditional predicate consequent alternative => do
    let condition ← self (.eval evaluator predicate frame (depth + 1))
    if condition.isTruthy then self (.eval evaluator consequent frame (depth + 1))
    else self (.eval evaluator alternative frame (depth + 1))
  | .sequence items =>
    items.foldlM (fun _ item => self (.eval evaluator item frame (depth + 1))) Term.null
  | .lambda params body => close params body frame (some evaluator)
  | .application operator operands => do
    let callee ← self (.eval evaluator operator frame (depth + 1))
    let arguments ← operands.mapM fun operand => self (.eval evaluator operand frame (depth + 1))
    self (.apply evaluator callee arguments (depth + 1))
  | node => Run.fail (.unknownKind node)

/-- What a task does, in terms of smaller tasks. -/
def step (machine : Machine) (self : Task → Run Term) : Task → Run Term
  | .eval evaluator term frame depth =>
    if term.isNode then
      match machine.exceeds evaluator depth with
      | some limit => Run.fail (.tooDeep limit)
      | none => stepNode self evaluator frame depth term
    else pure term
  | .apply evaluator callee arguments depth =>
    match callee with
    -- The body runs under the evaluator that applies the closure, whichever created it.
    | .closure _ params body home _ => do
      let frame ← Run.enter params home arguments
      self (.eval evaluator body frame depth)
    | .primitive callable => do
      -- The note stands before those of callbacks, and even if the primitive fails.
      Run.log (.hostApplied callable arguments)
      Run.atCallbackDepth evaluator depth (machine.applyPrimitive self callable arguments)
    | value => refuse value
  | .call callee arguments =>
    match callee with
    | .closure id params body home owner => do
      -- Host code carries no depth: the closure goes on where its evaluator is inside a host call.
      let evaluator := owner.getD defaultEvaluator
      let depth := (← get).callbackDepth evaluator
      self (.apply evaluator (.closure id params body home owner) arguments depth)
    | .primitive callable => machine.applyPrimitive self callable arguments
    | _ => Run.fail .unfit

/-- Runs a task whose tasks nest no deeper than a bound. -/
def run (machine : Machine) : Nat → Task → Run Term
  | 0, _ => throw .unfinished
  | bound + 1, task => machine.step (machine.run bound) task

/-- Evaluates a term in a frame under an evaluator. -/
def evaluate (machine : Machine) (bound : Nat) (evaluator : EvaluatorId) (term : Term)
    (frame : FrameId) : Run Term := do
  machine.run bound (.eval evaluator term frame ((← get).callbackDepth evaluator))

def apply (machine : Machine) (bound : Nat) (evaluator : EvaluatorId) (callee : Term)
    (arguments : List Term) : Run Term := do
  machine.run bound (.apply evaluator callee arguments ((← get).callbackDepth evaluator))

end Machine

end Rulebook
