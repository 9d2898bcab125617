import Rulebook.Session.Environment

/-!
# Registries of a session

Creating and filling registries by name, and creating root environments from them.
-/

namespace Rulebook
namespace Session

def registry (name : String) : SessionM Registry := do
  named (← get).registries name

def nameRegistry (name : String) (registry : Registry) : SessionM Unit :=
  modify fun session => { session with registries := insertNamed name registry session.registries }

/-- The bindings that a mapping with texts for keys stands for. -/
def bindingsOf : Term → SessionM Bindings
  | .mapping entries => pure (entries.filterMap fun (key, value) => match key with
    | .str name => some (name, value)
    | _ => none)
  | _ => fail .noAttribute

/-- Creates a registry from a first one and further callables, and gives its size. -/
def newRegistry (name : String) (base : Registry) (callables : Term) : SessionM Nat := do
  let bindings ← match callables with
    | .null => pure []
    | callables => bindingsOf callables
  match base.update bindings with
  | (registry, none) =>
    nameRegistry name registry
    pure registry.entries.length
  | (_, some problem) => throw (.notCallable problem)

def register (registryName name : String) (value : Term) : SessionM Term := do
  match (← registry registryName).register name value with
  | .ok registry =>
    nameRegistry registryName registry
    pure value
  | .error problem => throw (.notCallable problem)

/-- Registers callables one after another, up to the first that is none, and gives the size. -/
def updateRegistry (registryName : String) (callables : Term) : SessionM Nat := do
  let bindings ← bindingsOf callables
  let (registry, problem) := (← registry registryName).update bindings
  nameRegistry registryName registry
  match problem with
  | none => pure registry.entries.length
  | some problem => throw (.notCallable problem)

def copyRegistry (registryName name : String) : SessionM Nat := do
  let registry ← registry registryName
  nameRegistry name registry
  pure registry.entries.length

def registryNames (registryName : String) : SessionM (List String) := do
  pure (Text.sorted (← registry registryName).entries.names)

def registered (registryName name : String) : SessionM Term := do
  match (← registry registryName).value? name with
  | some value => pure value
  | none => fail .noKey

/-- Names a frame that was filled from a registry, and gives the names that it binds, sorted. -/
def nameBootstrapped (name : String) (frame : FrameId) : SessionM (List String) := do
  nameEnvironment name frame
  pure (Text.sorted ((← get).store.bindings frame).names)

def bootstrap (registryName name : String) (bindings : Bindings) : SessionM (List String) := do
  let registry ← registry registryName
  nameBootstrapped name (← run (registry.bootstrap bindings))

def bootstrapLending (registryName name : String) : SessionM (List String) := do
  let registry ← registry registryName
  nameBootstrapped name (← run (Lending.bootstrap registry))

end Session
end Rulebook
