import Rulebook.Fault

/-!
# Host functions

A function that the embedding application supplies sees its arguments and may call back what it is
given, but it cannot see frames, evaluators or limits.  What it does is therefore a tree: it ends
with a value or a fault, or it calls something and continues with what came of that.  Every branch
of the tree is finite, so a host function ends if its callbacks do.
-/

namespace Rulebook

/-- What a host function does. -/
inductive HostProgram where
  | done (outcome : Except Fault Term)
  /-- Calls back, and continues with the outcome. -/
  | call (callee : Term) (arguments : List Term) (next : Except Fault Term → HostProgram)
  /-- Takes a note. -/
  | note (tag : Term) (next : HostProgram)

/-- The functions that an application supplies, by name. -/
abbrev HostLibrary := String → List Term → HostProgram

namespace HostProgram

def refuse : HostProgram :=
  .done (.error .unfit)

def pure (compute : List Term → Except Fault Term) (arguments : List Term) : HostProgram :=
  .done (compute arguments)

/-- Calls a function on each item in turn and lists the values. -/
def mapItems (callee : Term) (values : List Term) : List Term → HostProgram
  | [] => .done (.ok (.list values.reverse))
  | item :: rest => .call callee [item] fun
    | .ok value => mapItems callee (value :: values) rest
    | .error fault => .done (.error fault)

/-- `map f items` lists `f item` for each item. -/
def map : List Term → HostProgram
  | [callee, collection] => match collection.items? with
    | some items => mapItems callee [] items
    | none => refuse
  | _ => refuse

/-- `invoke f a b …` is `f a b …`. -/
def invoke : List Term → HostProgram
  | callee :: arguments => .call callee arguments .done
  | [] => refuse

/-- `try f a b …` is `f a b …`, or the name of the fault if the rule language raised one. -/
def attempt : List Term → HostProgram
  | callee :: arguments => .call callee arguments fun
    | .ok value => .done (.ok value)
    | .error fault => match fault.name? with
      | some name => .done (.ok (.str name))
      | none => .done (.error fault)
  | [] => refuse

/-- `note tag` takes a note and returns it. -/
def takeNote : List Term → HostProgram
  | [tag] => .note tag (.done (.ok tag))
  | _ => refuse

/-- `nothing a b …` is `null`. -/
def nothing (_ : List Term) : HostProgram :=
  .done (.ok .null)

/-- The functions for calling back, by name. -/
def callbacks : List (String × (List Term → HostProgram)) :=
  [("map", map), ("invoke", invoke), ("try", attempt), ("note", takeNote), ("nothing", nothing)]

end HostProgram

end Rulebook
