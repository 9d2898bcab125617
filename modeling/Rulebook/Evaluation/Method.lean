import Rulebook.Evaluation.Run
import Rulebook.Term.Property

/-!
# Methods of environments and closures

Closures know their environment, and a program that asks for it can do with it what the application
can: look up names and bind them, find out where they are bound, and extend it.  A closure also lets
its parameters be bound without evaluating its body.  Names have to be texts to be bound.
-/

namespace Rulebook

def Bindings.toTerm (bindings : Bindings) : Term :=
  .mapping (bindings.map fun (name, value) => (.str name, value))

def Store.scopeAttributes (store : Store) (frame : FrameId) : List (String × Term) :=
  [("frame", (store.bindings frame).toTerm),
   ("parent", ((store.parent? frame).map Term.scope).getD .null),
   ("depth", .int (store.depth frame))] ++
  ScopeMethod.all.map fun method => (method.name, .primitive (.method (.scope method frame)))

namespace Run

/-- The name that a term stands for; what cannot be a key cannot be looked for at all, and any other
term is a name that nothing has. -/
def nameOf (term : Term) : Run String :=
  match term.text? with
  | some name => pure name
  | none => do
    let shown := (← get).display? term
    fail (if term.isKey then .unbound (shown.getD "") else .unfit)

def newName (term : Term) : Run String :=
  match term.text? with
  | some name => pure name
  | none => fail .unfit

def itemsOf (term : Term) : Run (List Term) :=
  match term.items? with
  | some items => pure items
  | none => fail .unfit

def find (frame : FrameId) (name : String) : Run FrameId := do
  match (← get).find? frame name with
  | some found => pure found
  | none => fail (.unbound name)

/-- Extends an environment by names and values, which have to be as many. -/
def extendBy (frame : FrameId) (names values : Term) : Run Term := do
  let names ← itemsOf names
  let values ← itemsOf values
  if names.length ≠ values.length then fail (.arity names.length values.length none)
  else
    let names ← names.mapM newName
    Term.scope <$> extend (some frame) names values

def isBound (frame : FrameId) (term : Term) : Run Term := do
  match term.text? with
  | some name => pure (.bool ((← get).isBound frame name))
  | none => if term.isKey then pure (.bool false) else fail .unfit

def callScope (frame : FrameId) : ScopeMethod → List Term → Run Term
  | .chain, [] => do pure (.tuple (((← get).chain frame).map Term.scope))
  | .extend, [names, values] => extendBy frame names values
  | .find, [name] => do Term.scope <$> find frame (← nameOf name)
  | .lookup, [name] => do lookup frame (← nameOf name)
  | .define, [name, value] => do define frame (← newName name) value
  | .assign, [name, value] => do assign frame (← nameOf name) value
  | .isBound, [name] => isBound frame name
  | .snapshot, [] => do pure ((← get).snapshot frame).toTerm
  | _, _ => fail .unfit

/-- Enters a closure: binds its parameters to arguments, which have to be as many, in a fresh frame inside
of the one that it was created in. -/
def enter (params : List String) (home : FrameId) (arguments : List Term) : Run FrameId := do
  if params.length ≠ arguments.length then
    fail (.arity params.length arguments.length (some params))
  else
    let frame ← extend (some home) params arguments
    log (.frameEntered params)
    pure frame

/-- Binds the parameters of a closure to the items of a term. -/
def bindArguments (params : List String) (home : FrameId) : List Term → Run Term
  | [arguments] => do Term.scope <$> enter params home (← itemsOf arguments)
  | _ => fail .unfit

end Run

end Rulebook
