import Rulebook.Evaluation.Host
import Rulebook.Scope.Display

/-!
# Runs

A run transforms the store and ends with a value, with a fault, or, when it was given too small a
bound, unfinished.  The store that it leaves is there in every case: a fault undoes nothing.
-/

namespace Rulebook

/-- Why a run ends without a value. -/
inductive Halt where
  | fault (fault : Fault)
  /-- The bound on the nesting of the run was too small. -/
  | unfinished

/-- A computation on the store that can halt. -/
abbrev Run := ExceptT Halt (StateM Store)

namespace Run

def fail (fault : Fault) : Run α :=
  throw (.fault fault)

def ofExcept : Except Fault α → Run α
  | .ok value => pure value
  | .error fault => fail fault

def log (event : Event) : Run Unit :=
  modify fun store => store.log event

def lookup (frame : FrameId) (name : String) : Run Term := do
  match (← get).lookup? frame name with
  | some value => pure value
  | none => fail (.unbound name)

/-- Binds a name in a frame and returns the value. -/
def define (frame : FrameId) (name : String) (value : Term) : Run Term := do
  modify fun store => store.define frame name value
  pure value

/-- Rebinds a name where it is bound and returns the value. -/
def assign (frame : FrameId) (name : String) (value : Term) : Run Term := do
  match (← get).assign? frame name value with
  | some store =>
    set store
    pure value
  | none => fail (.unbound name)

/-- Adds a frame that binds names to values position by position. -/
def extend (parent : Option FrameId) (names : List String) (values : List Term) :
    Run FrameId := do
  if names.length ≠ values.length then fail (.arity names.length values.length none)
  else
    let (store, frame) := (← get).extend parent (names.zip values)
    set store
    pure frame

/-- Ends with the outcome instead of halting at a fault. -/
def observe (run : Run α) : Run (Except Fault α) := fun store =>
  match run store with
  | (.ok value, store) => (.ok (.ok value), store)
  | (.error (.fault fault), store) => (.ok (.error fault), store)
  | (.error .unfinished, store) => (.error .unfinished, store)

/-- Runs with an evaluator's callback depth set, and restores it however the run ends. -/
def atCallbackDepth (evaluator : EvaluatorId) (depth : Nat) (run : Run α) : Run α := fun store =>
  let saved := store.callbackDepth evaluator
  let (outcome, store) := run (store.setCallbackDepth evaluator depth)
  (outcome, store.setCallbackDepth evaluator saved)

/-- Follows a host program, with a way to call back. -/
def ofProgram (call : Term → List Term → Run Term) : HostProgram → Run Term
  | .done outcome => ofExcept outcome
  | .call callee arguments next => do
    let outcome ← observe (call callee arguments)
    ofProgram call (next outcome)
  | .note tag next => do
    modify fun store => { store with notes := store.notes.push tag }
    ofProgram call next

end Run

end Rulebook
