import Rulebook.Event
import Rulebook.Scope.Bindings

/-!
# The store of frames

Every environment is a frame of bindings with an optional parent, kept in one store and known by
its position.  A frame is created after its parent, so that following parents leads to smaller
positions and comes to an end; names are looked up, assigned and shown along that chain.

The store also holds what an evaluation leaves behind besides frames: how deep each evaluator is
inside a host call, how many closures there are, the notes taken, and the trace of events.
-/

namespace Rulebook

/-- Bindings with an optional parent frame. -/
structure Frame where
  bindings : Bindings := []
  parent : Option FrameId := none
deriving Inhabited

/-- The frames, and what else outlives an evaluation. -/
structure Store where
  frames : Array Frame := #[]
  /-- For each evaluator the depth of the host call that it is inside. -/
  callbackDepths : List Nat := []
  /-- The number of closures created so far. -/
  closures : Nat := 0
  notes : Array Term := #[]
  trace : Array Event := #[]
deriving Inhabited

/-- Replaces a number in a list that is zero wherever it is too short. -/
def setDepth : List Nat → Nat → Nat → List Nat
  | [], 0, depth => [depth]
  | [], index + 1, depth => 0 :: setDepth [] index depth
  | _ :: rest, 0, depth => depth :: rest
  | first :: rest, index + 1, depth => first :: setDepth rest index depth

namespace Store

def bindings (store : Store) (id : FrameId) : Bindings :=
  match store.frames[id]? with
  | some frame => frame.bindings
  | none => []

def parent? (store : Store) (id : FrameId) : Option FrameId :=
  store.frames[id]?.bind Frame.parent

/-- A frame and those it is inside, at most `bound` of them. -/
def chainWithin (store : Store) : Nat → FrameId → List FrameId
  | 0, _ => []
  | bound + 1, id => id :: match store.parent? id with
    | some parent => store.chainWithin bound parent
    | none => []

/-- A frame and those it is inside, from the inside out. -/
def chain (store : Store) (id : FrameId) : List FrameId :=
  -- Parents come before their frames, so there are no more than these.
  store.chainWithin (id + 1) id

def depth (store : Store) (id : FrameId) : Nat :=
  (store.chain id).length - 1

/-- The nearest frame that binds a name. -/
def find? (store : Store) (id : FrameId) (name : String) : Option FrameId :=
  (store.chain id).find? fun frame => (store.bindings frame).binds name

/-- The value of a name in the nearest frame that binds it. -/
def lookup? (store : Store) (id : FrameId) (name : String) : Option Term :=
  (store.find? id name).bind fun frame => (store.bindings frame).value? name

def isBound (store : Store) (id : FrameId) (name : String) : Bool :=
  (store.chain id).any fun frame => (store.bindings frame).binds name

/-- Binds a name in a frame of its own. -/
def define (store : Store) (id : FrameId) (name : String) (value : Term) : Store :=
  { store with
    frames := store.frames.modify id fun frame =>
      { frame with bindings := frame.bindings.insert name value } }

/-- Rebinds a name in the nearest frame that binds it. -/
def assign? (store : Store) (id : FrameId) (name : String) (value : Term) : Option Store :=
  (store.find? id name).map fun frame => store.define frame name value

def push (store : Store) (frame : Frame) : Store × FrameId :=
  ({ store with frames := store.frames.push frame }, store.frames.size)

def extend (store : Store) (parent : Option FrameId) (pairs : Bindings) : Store × FrameId :=
  store.push { bindings := Bindings.insertAll [] pairs, parent := parent }

/-- All bindings in reach, the inner ones over the outer ones. -/
def snapshot (store : Store) (id : FrameId) : Bindings :=
  (store.chain id).reverse.foldl (fun view frame => view.insertAll (store.bindings frame)) []

/-- How deep an evaluator is inside a host call. -/
def callbackDepth (store : Store) (evaluator : EvaluatorId) : Nat :=
  store.callbackDepths.getD evaluator 0

def setCallbackDepth (store : Store) (evaluator : EvaluatorId) (depth : Nat) : Store :=
  { store with callbackDepths := setDepth store.callbackDepths evaluator depth }

def log (store : Store) (event : Event) : Store :=
  { store with trace := store.trace.push event }

end Store

end Rulebook
