import Rulebook.Proofs.Evaluation.Nesting

/-!
# Callback depths are restored

A host application sets the callback depth of its evaluator and puts back what it found, however it
ends.  So the depths after a task are the depths before it, and while host code runs they can be
read off the host applications in progress: each evaluator is as deep as the innermost one that it
began.

What holds while an evaluation runs is stated with the help of a watch.  It keeps a list of the host
applications in progress and looks at the store before and after each task.  Where it finds
something wrong it does something else instead, and this never happens.
-/

namespace Rulebook

/-- The host applications in progress, the innermost first: which evaluators began them, and how
deep they were. -/
abbrev HostCalls := List (EvaluatorId × Nat)

namespace HostCalls

/-- How deep an evaluator is: as deep as its innermost host application, or as deep as it was to
begin with. -/
def depth (base : EvaluatorId → Nat) : HostCalls → EvaluatorId → Nat
  | [], evaluator => base evaluator
  | (caller, depth) :: outer, evaluator =>
    if evaluator = caller then depth else HostCalls.depth base outer evaluator

/-- How deep a host application is compares in a given way with the depth of its evaluator outside
of it. -/
def Nested (compares : Nat → Nat → Prop) (base : EvaluatorId → Nat) : HostCalls → Prop
  | [] => True
  | (caller, depth) :: outer =>
    compares (HostCalls.depth base outer caller) depth ∧ Nested compares base outer

end HostCalls

def Task.hostCalls : Task → HostCalls
  | .apply evaluator (.primitive _) _ depth => [(evaluator, depth)]
  | _ => []

/-- Which evaluator a task begins with at which depth; a call from a host function begins with none. -/
def Task.position? : Task → Option (EvaluatorId × Nat)
  | .eval evaluator _ _ depth | .apply evaluator _ _ depth => some (evaluator, depth)
  | .call _ _ => none

/-- The depths are those of the host applications in progress, before a task and after it, and
neither a host application nor the task is less deep than what it is inside of. -/
structure Task.Watched (base : EvaluatorId → Nat) (calls : HostCalls) (task : Task)
    (before after : Store) : Prop where
  before : ∀ evaluator, before.callbackDepth evaluator = calls.depth base evaluator
  after : ∀ evaluator, after.callbackDepth evaluator = calls.depth base evaluator
  nested : calls.Nested (· ≤ ·) base
  deep : ∀ evaluator depth, task.position? = some (evaluator, depth) →
    calls.depth base evaluator ≤ depth

open Classical in
/-- Runs a task like `run`, and keeps a list of the host applications in progress.  Where something
is wrong it escapes. -/
noncomputable def Machine.runWatched (machine : Machine) (base : EvaluatorId → Nat)
    (escape : Run Term) : Nat → HostCalls → Task → Run Term
  | 0, _, _ => throw .unfinished
  | bound + 1, calls, task => fun store =>
    let inner := machine.runWatched base escape bound (task.hostCalls ++ calls)
    let result := machine.step inner task store
    if task.Watched base calls store result.2 then result else escape store

/-- What an application asks of an evaluator. -/
inductive TopCall where
  | evaluate (evaluator : EvaluatorId) (term : Term) (frame : FrameId)
  | apply (evaluator : EvaluatorId) (callee : Term) (arguments : List Term)

namespace TopCall

def run (machine : Machine) (bound : Nat) : TopCall → Run Term
  | .evaluate evaluator term frame => machine.evaluate bound evaluator term frame
  | .apply evaluator callee arguments => machine.apply bound evaluator callee arguments

def task (store : Store) : TopCall → Task
  | .evaluate evaluator term frame => .eval evaluator term frame (store.callbackDepth evaluator)
  | .apply evaluator callee arguments =>
    .apply evaluator callee arguments (store.callbackDepth evaluator)

theorem run_eq (machine : Machine) (bound : Nat) (call : TopCall) (store : Store) :
    call.run machine bound store = machine.run bound (call.task store) store := by
  cases call <;> rfl

/-- The store after a number of calls, each with a bound of its own. -/
def serve (machine : Machine) (calls : List (Nat × TopCall)) (store : Store) : Store :=
  calls.foldl (fun store call => (call.2.run machine call.1 store).2) store

end TopCall

namespace Nesting

/-- An evaluation compared with itself: the depths are those of the host applications in progress. -/
def watch (compares : Nat → Nat → Prop) (base : EvaluatorId → Nat) : Nesting HostCalls where
  depths calls depths depths' :=
    depths = depths' ∧ ∀ evaluator, depths.getD evaluator 0 = calls.depth base evaluator
  inside calls evaluator depth := (evaluator, depth) :: calls
  hosted calls := calls.Nested compares base
  runs calls evaluator depth :=
    calls.Nested compares base ∧ compares (calls.depth base evaluator) depth
  past := []
  past' := []

variable {compares : Nat → Nat → Prop} {base : EvaluatorId → Nat}

theorem lawful_watch (hrefl : ∀ depth, compares depth depth)
    (hsucc : ∀ depth depth', compares depth depth' → compares depth (depth' + 1)) :
    (watch compares base).Lawful where
  deeper hruns := ⟨hruns.1, hsucc _ _ hruns.2⟩
  hosts hruns := ⟨hruns.2, hruns.1⟩
  depth _ hdepths evaluator := by rw [hdepths.1]
  resumes hhosted hdepths evaluator := ⟨hhosted, hdepths.2 evaluator ▸ hrefl _⟩
  enter _ hdepths := by
    refine ⟨by rw [hdepths.1], fun other => ?_⟩
    rw [getD_setDepth, hdepths.2]
    rfl
  leave {calls evaluator depth _ _ _ _} _ hdepths hinner := by
    refine ⟨by rw [hdepths.1, hinner.1], fun other => ?_⟩
    rw [getD_setDepth, hdepths.2, hinner.2]
    by_cases hother : other = evaluator
    · rw [if_pos hother, hother]
    · rw [if_neg hother]
      exact if_neg hother

theorem related_watch {calls : HostCalls} {store : Store}
    (hdepths : ∀ evaluator, store.callbackDepth evaluator = calls.depth base evaluator) :
    (watch compares base).related calls store store where
  frames := rfl
  closures := rfl
  notes := rfl
  depths := ⟨rfl, hdepths⟩
  trace := ⟨store.trace.toList, rfl, rfl⟩

theorem eq_of_related_watch {calls : HostCalls} {first second : Store}
    (hstores : (watch compares base).related calls first second) : first = second := by
  obtain ⟨hframes, hclosures, hnotes, ⟨hdepths, _⟩, events, hfirst, hsecond⟩ := hstores
  have htrace : first.trace = second.trace := by
    rw [← Array.toList_inj, hfirst, hsecond]
    rfl
  cases first
  cases second
  simp only [Store.mk.injEq]
  exact ⟨hframes, hdepths, hclosures, hnotes, htrace⟩

end Nesting

namespace Machine

open Run

section Runs

variable (machine : Machine) (bound : Nat)

theorem lawful_watch_any (base : EvaluatorId → Nat) :
    (Nesting.watch (fun _ _ => True) base).Lawful :=
  Nesting.lawful_watch (fun _ => trivial) fun _ _ _ => trivial

theorem same_run_self (task : Task) (store : Store) :
    Same ((Nesting.watch (fun _ _ => True) store.callbackDepth).related [])
      (machine.run bound task) (machine.run bound task) store store := by
  apply (lawful_watch_any store.callbackDepth).same_run
  · cases task <;> trivial
  · exact Nesting.related_watch fun _ => rfl

/-- However a task ends, every evaluator is as deep as before. -/
theorem callbackDepth_run (task : Task) (store : Store) (evaluator : EvaluatorId) :
    (machine.run bound task store).2.callbackDepth evaluator = store.callbackDepth evaluator :=
  (machine.same_run_self bound task store).related.depths.2 evaluator

theorem resumes_run (task : Task) : Moves Store.Resumes (machine.run bound task) := fun store =>
  ⟨(machine.same_run_self bound task store).later, machine.callbackDepth_run bound task store⟩

/-- What a primitive does comes after what was there when it was applied. -/
theorem later_applyPrimitive (evaluator : EvaluatorId) (depth : Nat) (callable : Primitive)
    (arguments : List Term) : Moves Store.Later
      (Run.atCallbackDepth evaluator depth
        (machine.applyPrimitive (machine.run bound) callable arguments)) := by
  intro store
  set N := Nesting.watch (fun _ _ => True) store.callbackDepth
  have law : N.Lawful := lawful_watch_any store.callbackDepth
  have hstores : N.related [] store store := Nesting.related_watch fun _ => rfl
  have hruns : N.runs [] evaluator depth := ⟨trivial, trivial⟩
  have hself : N.Respects (N.inside [] evaluator depth) (machine.run bound) (machine.run bound) :=
    fun _ _ _ hfits hinside => law.same_run machine bound hfits hinside
  have hsame : Same (N.related [])
      (Run.atCallbackDepth evaluator depth
        (machine.applyPrimitive (machine.run bound) callable arguments))
      (Run.atCallbackDepth evaluator depth
        (machine.applyPrimitive (machine.run bound) callable arguments)) store store := by
    apply law.same_atCallbackDepth hruns hstores
    exact law.same_applyPrimitive hself (law.hosts hruns)
      (hstores.setCallbackDepth (law.enter hruns hstores.depths)) callable arguments
  exact hsame.later

end Runs

theorem callbackDepth_serve (machine : Machine) (calls : List (Nat × TopCall)) (store : Store)
    (evaluator : EvaluatorId) :
    (TopCall.serve machine calls store).callbackDepth evaluator =
      store.callbackDepth evaluator := by
  induction calls generalizing store with
  | nil => rfl
  | cons call rest ih =>
      have hrest : TopCall.serve machine (call :: rest) store =
          TopCall.serve machine rest (call.2.run machine call.1 store).2 := rfl
      rw [hrest, ih, TopCall.run_eq, callbackDepth_run]

section Watching

variable {machine : Machine} {base : EvaluatorId → Nat} {escape : Run Term}

theorem same_runWatched (bound : Nat) {calls : HostCalls} {task : Task} {first second : Store}
    (hfits : (Nesting.watch (· ≤ ·) base).Fits calls task)
    (hstores : (Nesting.watch (· ≤ ·) base).related calls first second) :
    Same ((Nesting.watch (· ≤ ·) base).related calls)
      (machine.runWatched base escape bound calls task) (machine.run bound task) first second := by
  have law : (Nesting.watch (· ≤ ·) base).Lawful :=
    Nesting.lawful_watch Nat.le_refl fun _ _ => Nat.le_succ_of_le
  induction bound generalizing calls task first second with
  | zero => exact inStep_throw hstores _
  | succ bound ih =>
      have hwithin : (Nesting.watch (· ≤ ·) base).within calls task = task.hostCalls ++ calls := by
        cases task with
        | apply evaluator callee arguments depth => cases callee <;> rfl
        | _ => rfl
      have hstep : Same ((Nesting.watch (· ≤ ·) base).related calls)
          (machine.step (machine.runWatched base escape bound (task.hostCalls ++ calls)) task)
          (machine.step (machine.run bound) task) first second := by
        apply law.same_step _ hfits hstores
        intro inner after after' hinner hafter
        rw [hwithin] at hinner hafter ⊢
        exact ih hinner hafter
      -- The step leaves the depths as it finds them, so the watch has no reason to escape.
      have hwatched : task.Watched base calls first
          (machine.step (machine.runWatched base escape bound (task.hostCalls ++ calls)) task
            first).2 := by
        refine ⟨hstores.depths.2, hstep.related.depths.2, ?_, ?_⟩
        · cases task with
          | call callee arguments => exact hfits
          | _ => exact hfits.1
        · intro evaluator depth hposition
          cases task with
          | call callee arguments => cases hposition
          | _ =>
              cases hposition
              exact hfits.2
      have hrun : machine.runWatched base escape (bound + 1) calls task first =
          machine.step (machine.runWatched base escape bound (task.hostCalls ++ calls)) task
            first := if_pos hwatched
      exact .of_eq hrun rfl hstep.outcome hstep.related hstep.later

theorem runWatched_eq (bound : Nat) {calls : HostCalls} {task : Task} {store : Store}
    (hfits : (Nesting.watch (· ≤ ·) base).Fits calls task)
    (hdepths : ∀ evaluator, store.callbackDepth evaluator = calls.depth base evaluator) :
    machine.runWatched base escape bound calls task store = machine.run bound task store := by
  have hsame : Same ((Nesting.watch (· ≤ ·) base).related calls)
      (machine.runWatched base escape bound calls task) (machine.run bound task) store store :=
    same_runWatched bound hfits (Nesting.related_watch hdepths)
  obtain ⟨houtcome, hrelated, _⟩ := hsame
  apply Prod.ext
  · exact houtcome.eq
  · exact Nesting.eq_of_related_watch hrelated

end Watching

end Machine
end Rulebook
