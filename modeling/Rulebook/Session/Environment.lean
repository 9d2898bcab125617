import Rulebook.Session.Basic
import Rulebook.Text.Sorted

/-!
# Environments of a session

Creating, reading and changing environments by name.  Where bindings are shown, those that the
root environment was filled with at first are left out.
-/

namespace Rulebook
namespace Session

def newEnvironment (name : String) : SessionM Unit := do
  nameEnvironment name (← run (Run.extend none [] []))

/-- Creates an environment that binds names to values, inside a parent if there is one, and gives
its depth. -/
def extend (parent : Option String) (names : List String) (values : List Term) (name : String) :
    SessionM Nat := do
  let parent ← match parent with
    | some parent => some <$> environment parent
    | none => pure none
  let frame ← run (Run.extend parent names values)
  nameEnvironment name frame
  pure ((← get).store.depth frame)

def lookup (scope name : String) : SessionM Term := do
  run (Run.lookup (← environment scope) name)

def define (scope name : String) (value : Term) : SessionM Term := do
  run (Run.define (← environment scope) name value)

def assign (scope name : String) (value : Term) : SessionM Term := do
  run (Run.assign (← environment scope) name value)

def isBound (scope name : String) : SessionM Bool := do
  pure ((← get).store.isBound (← environment scope) name)

def find (scope name : String) : SessionM (Option String) := do
  match (← get).store.find? (← environment scope) name with
  | some frame => pure ((← get).nameOf frame)
  | none => fail (.unbound name)

def depth (scope : String) : SessionM Nat := do
  pure ((← get).store.depth (← environment scope))

def chain (scope : String) : SessionM (List (Option String)) := do
  let session ← get
  pure ((session.store.chain (← environment scope)).map session.nameOf)

/-- The bindings that are shown: those that differ from the first ones of the root. -/
def visible (session : Session) (bindings : Bindings) : Bindings :=
  bindings.filter fun (name, value) => match session.initial.value? name with
    | some first => !first.equal value
    | none => true

def frame (scope : String) : SessionM Bindings := do
  let session ← get
  pure (session.visible (session.store.bindings (← environment scope)))

def snapshot (scope : String) : SessionM Bindings := do
  let session ← get
  pure (session.visible (session.store.snapshot (← environment scope)))

def display (scope : String) : SessionM String := do
  let frame ← environment scope
  pure ((← get).store.displayScope frame)

def frames (session : Session) : List (String × Bindings) :=
  session.environments.map fun (name, frame) =>
    (name, session.visible (session.store.bindings frame))

end Session
end Rulebook
