import Rulebook.Term.Basic

/-!
# Events

What an evaluation tells about itself while it runs.
-/

namespace Rulebook

/-- Something that happened during an evaluation. -/
inductive Event where
  /-- A root frame was filled with a number of primitives. -/
  | bootstrapped (count : Nat)
  | closureCreated (params : List String)
  | frameEntered (params : List String)
  /-- A primitive was applied under an evaluator. -/
  | hostApplied (callable : Primitive) (arguments : List Term)
  | ruleFired (rule : String)
  | rulePassed (rule : String)
  /-- Rules that fired disagree, and the first was taken. -/
  | conflictWarned (rules : List String)
  /-- Rules that fired disagree, and that was reported as a failure. -/
  | conflictReported (rules : List String)

end Rulebook
