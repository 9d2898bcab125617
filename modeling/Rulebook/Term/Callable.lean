/-!
# Callables

What a program can call besides closures: the core operations, the functions that an application
supplies, and what an environment, an evaluator or a closure does for those who have got hold of it.
Everything is known by name or by number, so that callables can be told apart.
-/

namespace Rulebook

/-- A frame of bindings, by its position in the store. -/
abbrev FrameId := Nat

/-- An evaluator, by its number. -/
abbrev EvaluatorId := Nat

/-- The operations that every rule program has. -/
inductive CorePrimitive where
  | and
  | or
  | not
  | equal
  | notEqual
  | less
  | greater
  | atMost
  | atLeast
  | plus
  | minus
  | times
  | divide
  | same
  | add
  | subtract
  | multiply
  | hasProperty
  | getProperty
  | list
deriving DecidableEq, Inhabited

/-- The name of a core operation that messages can show; most have none. -/
def CorePrimitive.shownName? : CorePrimitive → Option String
  | .notEqual => some "ne"
  | .same => some "eq"
  | .add => some "add"
  | .subtract => some "sub"
  | .multiply => some "mul"
  | _ => none

/-- What an environment does for those who hold it. -/
inductive ScopeMethod where
  | chain
  | extend
  | find
  | lookup
  | define
  | assign
  | isBound
  | snapshot
deriving DecidableEq, Inhabited

namespace ScopeMethod

def all : List ScopeMethod :=
  [.chain, .extend, .find, .lookup, .define, .assign, .isBound, .snapshot]

def name : ScopeMethod → String
  | .chain => "chain"
  | .extend => "extend"
  | .find => "find"
  | .lookup => "lookup"
  | .define => "define"
  | .assign => "set"
  | .isBound => "is_bound"
  | .snapshot => "snapshot"

end ScopeMethod

/-- What an evaluator does for those who hold it. -/
inductive EvaluatorMethod where
  | evaluate
  | apply
deriving DecidableEq, Inhabited

def EvaluatorMethod.name : EvaluatorMethod → String
  | .evaluate => "evaluate"
  | .apply => "apply"

inductive Method where
  | scope (method : ScopeMethod) (frame : FrameId)
  | evaluator (method : EvaluatorMethod) (evaluator : EvaluatorId)
  /-- Binds the parameters of a closure to arguments in a fresh frame. -/
  | bind (closure : Nat) (params : List String) (home : FrameId)
deriving DecidableEq, Inhabited

def Method.name : Method → String
  | .scope method _ => method.name
  | .evaluator method _ => method.name
  | .bind .. => "bind_arguments"

/-- What can be called besides closures. -/
inductive Primitive where
  | core (operation : CorePrimitive)
  /-- A function that the embedding application supplies. -/
  | host (name : String)
  | method (method : Method)
deriving DecidableEq, Inhabited

end Rulebook
