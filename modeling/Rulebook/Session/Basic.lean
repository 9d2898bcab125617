import Rulebook.Document.LoadError
import Rulebook.Lending.Rules
import Rulebook.Rule.Engine
import Rulebook.Rule.Journal

/-!
# Sessions

A session is what an application holds while it works with rules: the store, environments,
evaluators and registries by name, rules, an engine, and a journal.  A step of a session may fail,
and leaves in the session whatever it has done until then.
-/

namespace Rulebook

/-- Why a step of a session fails. -/
inductive Failure where
  | fault (fault : Fault)
  | malformed (problem : Malformed)
  | invalid (issues : List Issue)
  | unloadable (error : LoadError)
  | notCallable (problem : NotCallable)
  /-- A level, strategy or resolution is unknown. -/
  | unknownChoice
  /-- The bound on the nesting of evaluations was too small. -/
  | unfinished

structure Session where
  store : Store := {}
  environments : List (String × FrameId) := []
  /-- The limits of the evaluators, by number; the default evaluator has none. -/
  limits : List (Option Int) := [none]
  evaluators : List (String × EvaluatorId) := []
  registries : List (String × Registry) := []
  rules : List Rule := []
  engine : Option Engine := none
  /-- What the root environment was filled with at first, which is left out where frames are
  shown. -/
  initial : Bindings := []
  journal : Journal := {}
deriving Inhabited

abbrev SessionM := ExceptT Failure (StateM Session)

/-- The functions that an application supplies by default. -/
def standardLibrary : HostLibrary := fun name arguments =>
  match (HostProgram.callbacks ++ Lending.hostFunctions).lookup name with
  | some function => function arguments
  | none => .refuse

namespace Session

/-- How deep evaluations may nest.  No evaluation of a sensible size comes near it. -/
def nestingBound : Nat := 10000

def machine (session : Session) : Machine where
  host := standardLibrary
  limit := fun evaluator => session.limits.getD evaluator none

def fail (fault : Fault) : SessionM α :=
  throw (.fault fault)

/-- Runs on the store, and lets the journal receive what happened. -/
def run (run : Run α) : SessionM α := fun session =>
  let (outcome, store) := run session.store
  let session := { session with
    store := { store with trace := #[] }
    journal := session.journal.receive store.trace.toList }
  (match outcome with
    | .ok value => .ok value
    | .error (.fault fault) => .error (.fault fault)
    | .error .unfinished => .error .unfinished, session)

def expect : Except Malformed α → SessionM α
  | .ok value => pure value
  | .error problem => throw (.malformed problem)

def accept : Check α → SessionM α
  | .ok value => pure value
  | .error issues => throw (.invalid issues)

def loaded : Except LoadError α → SessionM α
  | .ok value => pure value
  | .error error => throw (.unloadable error)

def named (entries : List (String × α)) (name : String) : SessionM α :=
  match entries.lookup name with
  | some value => pure value
  | none => fail .noKey

def insertNamed (name : String) (value : α) : List (String × α) → List (String × α)
  | [] => [(name, value)]
  | (n, v) :: rest => if n = name then (n, value) :: rest else (n, v) :: insertNamed name value rest

def environment (name : String) : SessionM FrameId := do
  named (← get).environments name

def nameEnvironment (name : String) (frame : FrameId) : SessionM Unit :=
  modify fun session => { session with environments := insertNamed name frame session.environments }

def nameOf (session : Session) (frame : FrameId) : Option String :=
  (session.environments.find? fun entry => entry.2 = frame).map Prod.fst

def addEvaluator (limit : Option Int) : SessionM EvaluatorId := do
  let session ← get
  set { session with limits := session.limits ++ [limit] }
  pure session.limits.length

/-- The evaluator with a name; no name stands for the default one. -/
def evaluator : Option String → SessionM EvaluatorId
  | some name => do named (← get).evaluators name
  | none => pure defaultEvaluator

def runner (evaluator : EvaluatorId) : SessionM Runner := do
  pure { machine := (← get).machine, bound := nestingBound, evaluator }

/-- What the root environment of a session is filled with. -/
inductive Root where
  | core
  | empty
  /-- The core primitives, the accessors of lending, and the regions. -/
  | lending
deriving DecidableEq, Inhabited

def rootName : String := "root"

def createRoot (root : Root) (callbacks : Bool) : SessionM FrameId := do
  let base : Registry := if root = .empty then {} else .core
  let registry :=
    if callbacks then base.withHost (HostProgram.callbacks.map Prod.fst) else base
  let frame ← run (if root = .lending then Lending.bootstrap registry else registry.bootstrap [])
  nameEnvironment rootName frame
  modify fun session => { session with initial := session.store.bindings frame }
  pure frame

/-- Begins a session: a root environment with further bindings, and evaluators with limits. -/
def start (root : Root) (callbacks : Bool) (bindings : Bindings)
    (limits : List (String × Option Int)) : SessionM Unit := do
  let frame ← createRoot root callbacks
  for (name, value) in bindings do
    let _ ← run (Run.define frame name value)
  for (name, limit) in limits do
    let id ← addEvaluator limit
    modify fun session => { session with evaluators := insertNamed name id session.evaluators }

end Session

end Rulebook
