import Rulebook.Evaluation.Run
import Rulebook.Primitive.Core

/-!
# Registries

A registry lists the callables that a fresh root frame is filled with, by name.  Programs get new
abilities by registering more of them.
-/

namespace Rulebook

/-- Callables by name, in the order in which the names were first registered. -/
structure Registry where
  entries : Bindings := []
deriving Inhabited

/-- A value that is not callable was to be registered under a name. -/
structure NotCallable where
  name : String
  value : Term

def NotCallable.message (problem : NotCallable) : String :=
  "Primitive " ++ Text.quoted problem.name ++ " must be callable, got " ++ problem.value.typeName

namespace Registry

/-- Registers a callable under a name, in place of an earlier one. -/
def register (registry : Registry) (name : String) (value : Term) :
    Except NotCallable Registry :=
  if value.isCallable then .ok { entries := registry.entries.insert name value }
  else .error ⟨name, value⟩

/-- Registers callables one after another.  The first value that is not callable ends this, and
what was registered before it stays. -/
def update (registry : Registry) : Bindings → Registry × Option NotCallable
  | [] => (registry, none)
  | (name, value) :: rest => match registry.register name value with
    | .ok registry => update registry rest
    | .error problem => (registry, some problem)

def core : Registry where
  entries := CorePrimitive.all.map fun operation => (operation.name, .primitive (.core operation))

def withHost (registry : Registry) (names : List String) : Registry where
  entries := registry.entries.insertAll
    (names.map fun name => (name, .primitive (.host name)))

def value? (registry : Registry) (name : String) : Option Term :=
  registry.entries.value? name

/-- Creates a root frame with every callable of a registry, and further bindings. -/
def bootstrap (registry : Registry) (bindings : Bindings) : Run FrameId := do
  let (store, frame) := (← get).extend none (registry.entries ++ bindings)
  set (store.log (.bootstrapped registry.entries.length))
  pure frame

end Registry

end Rulebook
