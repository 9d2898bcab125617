import Rulebook.Proofs.Evaluation.Bounds

/-!
# Guarded runs

A guard looks at each task before it is run, and has something else done in place of a task that is
not allowed.  A run heeds the guard if it makes no difference what this is, whether it ends or not.
-/

namespace Rulebook
namespace Machine

open Run

/-- Runs a task like `run`, but does something else in place of tasks that are not allowed. -/
def runGuarded (machine : Machine) (allowed : Task → Bool) (escape : Run Term) :
    Nat → Task → Run Term
  | 0, _ => throw .unfinished
  | bound + 1, task =>
    if allowed task then machine.step (machine.runGuarded allowed escape bound) task else escape

/-- Stops a run, and leaves a mark in the store. -/
def stop (mark : Nat) : Run Term :=
  fun store => (.error .unfinished, { store with closures := mark })

/-- All tasks of a run are allowed, so that it makes no difference what the guard does. -/
def Heeds (machine : Machine) (allowed : Task → Bool) (task : Task) (store : Store) : Prop :=
  ∀ escape bound, machine.runGuarded allowed escape bound task store = machine.run bound task store

theorem below_runGuarded (machine : Machine) (allowed : Task → Bool) (escape : Run Term)
    {bound larger : Nat} (hle : bound ≤ larger) (task : Task) :
    Below (machine.runGuarded allowed escape bound task)
      (machine.runGuarded allowed escape larger task) := by
  rw [below_iff]
  induction bound generalizing larger task with
  | zero => exact Follows.of_unfinished _
  | succ bound ih =>
      obtain ⟨larger, rfl⟩ := Nat.exists_eq_add_one_of_ne_zero (Nat.ne_of_gt (Nat.zero_lt_of_lt hle))
      rw [runGuarded, runGuarded]
      split_ifs
      · apply follows_step (Imitates.refl (fun _ _ => true) machine)
        · exact fun task => ih (Nat.le_of_succ_le_succ hle) task
        · exact task.isPermitted_true
      · exact Follows.refl escape

/-- A run that ends has to heed the guard only up to where it ends. -/
theorem Heeds.of_finished {machine : Machine} {allowed : Task → Bool} {task : Task} {store : Store}
    {bound : Nat} (hends : (machine.run bound task store).1 ≠ .error .unfinished)
    (hheeds : ∀ smaller ≤ bound, ∀ escape,
      machine.runGuarded allowed escape smaller task store = machine.run smaller task store) :
    machine.Heeds allowed task store := by
  intro escape other
  rcases Nat.le_total other bound with hle | hle
  · exact hheeds other hle escape
  · have hguarded := machine.below_runGuarded allowed escape hle task store
    rw [hheeds bound (Nat.le_refl bound) escape] at hguarded
    rw [← hguarded.resolve_left hends]
    exact (machine.below_run hle task store).resolve_left hends

end Machine
end Rulebook
