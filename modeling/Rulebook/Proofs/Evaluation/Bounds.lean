import Rulebook.Proofs.Evaluation.Moves

/-!
# Bounds on runs

A run follows another one when it does the same, unless it halts in a way that excuses it.  Runs that
are put together out of such runs do so too, as long as no host program goes on after an excused
fault.  A larger bound never changes a run that was finished, since being unfinished is the only
excuse.  Neither does it to let a run go on that was stopped on purpose, where it would apply a
primitive that it should do without.
-/

namespace Rulebook

/-- A host program that ends with a fault of its callbacks when it is one of certain faults. -/
def HostProgram.Passes (faults : Fault → Prop) : HostProgram → Prop
  | .done _ => True
  | .call _ _ next =>
    (∀ fault, faults fault → next (.error fault) = .done (.error fault)) ∧
      ∀ outcome, (next outcome).Passes faults
  | .note _ next => next.Passes faults

theorem HostProgram.passes_of_none {faults : Fault → Prop} (hnone : ∀ fault, ¬ faults fault)
    (program : HostProgram) : program.Passes faults := by
  induction program with
  | done outcome => trivial
  | call callee arguments next ih => exact ⟨fun fault hfault => absurd hfault (hnone fault), ih⟩
  | note tag next ih => exact ih

namespace Run

/-- Unless the first run halts in an excused way, the second one does the same. -/
def Follows (excused : Halt → Prop) (first second : Run α) : Prop :=
  ∀ store, (∃ halt, excused halt ∧ (first store).1 = .error halt) ∨ first store = second store

/-- Wherever the first run is not unfinished, the second one does the same. -/
def Below (first second : Run α) : Prop :=
  ∀ store, (first store).1 = .error .unfinished ∨ first store = second store

theorem below_iff {first second : Run α} :
    Below first second ↔ Follows (· = .unfinished) first second := by
  simp [Below, Follows]

namespace Follows

variable {excused : Halt → Prop}

theorem refl (run : Run α) : Follows excused run run :=
  fun _ => Or.inr rfl

theorem of_eq {run other : Run α} (heq : run = other) : Follows excused run other :=
  fun _ => Or.inr (congrFun heq _)

theorem of_halt {halt : Halt} (hexcused : excused halt) (run : Run α) :
    Follows excused (throw halt) run :=
  fun _ => Or.inl ⟨halt, hexcused, rfl⟩

theorem of_unfinished (run : Run α) : Follows (· = .unfinished) (throw .unfinished) run :=
  fun _ => Or.inl ⟨.unfinished, rfl, rfl⟩

theorem bind {first second : Run α} {next further : α → Run β}
    (hfirst : Follows excused first second)
    (hnext : ∀ value, Follows excused (next value) (further value)) :
    Follows excused (first >>= next) (second >>= further) := by
  intro store
  rcases hfirst store with ⟨halt, hexcused, hhalt⟩ | hsame
  · left
    rcases houtcome : first store with ⟨outcome, after⟩
    rw [houtcome] at hhalt
    cases hhalt
    exact ⟨halt, hexcused, by rw [bind_of_halt houtcome]⟩
  · rcases houtcome : first store with ⟨halt | value, after⟩
    · right
      rw [bind_of_halt houtcome, bind_of_halt (hsame.symm.trans houtcome)]
    · rw [bind_of_ok houtcome, bind_of_ok (hsame.symm.trans houtcome)]
      exact hnext value after

theorem mapM {f g : α → Run β} (hitems : ∀ item, Follows excused (f item) (g item))
    (items : List α) : Follows excused (items.mapM f) (items.mapM g) := by
  induction items with
  | nil => exact refl _
  | cons item rest ih =>
      rw [List.mapM_cons, List.mapM_cons]
      exact (hitems item).bind fun value => ih.bind fun values => refl _

theorem foldlM {f g : β → α → Run β}
    (hitems : ∀ value item, Follows excused (f value item) (g value item)) (items : List α)
    (start : β) : Follows excused (items.foldlM f start) (items.foldlM g start) := by
  induction items generalizing start with
  | nil => exact refl _
  | cons item rest ih =>
      rw [List.foldlM_cons, List.foldlM_cons]
      exact (hitems start item).bind ih

theorem observe_bind {first second : Run α} {next further : Except Fault α → Run β}
    (hruns : Follows excused first second)
    (hpasses : ∀ fault, excused (.fault fault) → next (.error fault) = Run.fail fault)
    (hnext : ∀ outcome, Follows excused (next outcome) (further outcome)) :
    Follows excused (Run.observe first >>= next) (Run.observe second >>= further) := by
  intro store
  rcases hruns store with ⟨halt, hexcused, hhalt⟩ | hsame
  · left
    rcases houtcome : first store with ⟨outcome, after⟩
    rw [houtcome] at hhalt
    cases hhalt
    refine ⟨halt, hexcused, ?_⟩
    -- Only a fault is observed; an unfinished run stays unfinished.
    cases halt with
    | fault fault =>
        have hobserved : Run.observe first store = (.ok (.error fault), after) := by
          rw [Run.observe, houtcome]
        rw [bind_of_ok hobserved, hpasses fault hexcused]
        rfl
    | unfinished =>
        have hobserved : Run.observe first store = (.error .unfinished, after) := by
          rw [Run.observe, houtcome]
        rw [bind_of_halt hobserved]
  · have hobserved : Run.observe first store = Run.observe second store := by
      rw [Run.observe, Run.observe, hsame]
    rcases houtcome : Run.observe first store with ⟨halt | outcome, after⟩
    · right
      rw [bind_of_halt houtcome, bind_of_halt (hobserved.symm.trans houtcome)]
    · rw [bind_of_ok houtcome, bind_of_ok (hobserved.symm.trans houtcome)]
      exact hnext outcome after

theorem atCallbackDepth {first second : Run α} (evaluator : EvaluatorId) (depth : Nat)
    (hruns : Follows excused first second) :
    Follows excused (Run.atCallbackDepth evaluator depth first)
      (Run.atCallbackDepth evaluator depth second) := by
  intro store
  rcases hruns (store.setCallbackDepth evaluator depth) with hhalt | hsame
  · exact Or.inl hhalt
  · right
    rw [Run.atCallbackDepth, Run.atCallbackDepth, hsame]

theorem ofProgram {call further : Term → List Term → Run Term}
    (hcall : ∀ callee arguments, Follows excused (call callee arguments) (further callee arguments))
    {program : HostProgram} (hpasses : program.Passes fun fault => excused (.fault fault)) :
    Follows excused (Run.ofProgram call program) (Run.ofProgram further program) := by
  induction program with
  | done outcome => exact refl _
  | call callee arguments next ih =>
      apply (hcall callee arguments).observe_bind
      · intro fault hfault
        rw [hpasses.1 fault hfault]
        rfl
      · exact fun outcome => ih outcome (hpasses.2 outcome)
  | note tag next ih => exact (refl _).bind fun _ => ih hpasses

end Follows

end Run

def Task.isPermitted (permitted : Primitive → List Term → Bool) : Task → Bool
  | .apply _ (.primitive callable) arguments _ | .call (.primitive callable) arguments =>
    permitted callable arguments
  | _ => true

theorem Task.isPermitted_true (task : Task) : task.isPermitted (fun _ _ => true) = true := by
  unfold Task.isPermitted
  split <;> rfl

namespace Machine

open Run

/-- A machine that differs from another one only where this is excused or not permitted to be
seen. -/
structure Imitates (excused : Halt → Prop) (permitted : Primitive → List Term → Bool)
    (machine other : Machine) : Prop where
  host : machine.host = other.host
  passes : ∀ name arguments,
    (machine.host name arguments).Passes fun fault => excused (.fault fault)
  exceeds : ∀ evaluator depth, machine.exceeds evaluator depth = other.exceeds evaluator depth ∨
    ∃ limit, machine.exceeds evaluator depth = some limit ∧ excused (.fault (.tooDeep limit))
  core : ∀ operation operands, permitted (.core operation) operands = true →
    machine.applyCore operation operands = other.applyCore operation operands

theorem Imitates.refl (permitted : Primitive → List Term → Bool) (machine : Machine) :
    Imitates (· = .unfinished) permitted machine machine where
  host := rfl
  passes name arguments := HostProgram.passes_of_none (by simp) _
  exceeds _ _ := Or.inl rfl
  core _ _ _ := rfl

section Steps

variable {excused : Halt → Prop} {self further : Task → Run Term}

theorem follows_callEvaluator (hself : ∀ task, Follows excused (self task) (further task))
    (evaluator : EvaluatorId) (method : EvaluatorMethod) (arguments : List Term) :
    Follows excused (callEvaluator self evaluator method arguments)
      (callEvaluator further evaluator method arguments) := by
  unfold callEvaluator
  split
  · apply (Follows.refl _).bind
    intro store
    split
    · exact hself _
    · exact Follows.refl _
  · split_ifs
    · apply (Follows.refl _).bind
      intro store
      exact (Follows.refl _).bind fun items => hself _
    · exact Follows.refl _
  · exact Follows.refl _

theorem follows_applyPrimitive {permitted : Primitive → List Term → Bool} {machine other : Machine}
    (himitates : Imitates excused permitted machine other)
    (hself : ∀ task, Follows excused (self task) (further task)) {callable : Primitive}
    {arguments : List Term} (hpermitted : permitted callable arguments = true) :
    Follows excused (machine.applyPrimitive self callable arguments)
      (other.applyPrimitive further callable arguments) := by
  cases callable with
  | core operation => exact Follows.of_eq (himitates.core operation arguments hpermitted)
  | host name =>
      rw [applyPrimitive, applyPrimitive, ← himitates.host]
      exact Follows.ofProgram (fun callee arguments => hself _) (himitates.passes name arguments)
  | method method =>
      cases method with
      | evaluator method evaluator => exact follows_callEvaluator hself evaluator method arguments
      | _ => exact Follows.refl _

theorem follows_stepNode (hself : ∀ task, Follows excused (self task) (further task))
    (evaluator : EvaluatorId) (frame : FrameId) (depth : Nat) (term : Term) :
    Follows excused (stepNode self evaluator frame depth term)
      (stepNode further evaluator frame depth term) := by
  cases term with
  | assignment target value => exact (hself _).bind fun value => Follows.refl _
  | definition target value => exact (hself _).bind fun value => Follows.refl _
  | conditional p c a =>
      apply (hself _).bind
      intro condition
      split_ifs
      · exact hself _
      · exact hself _
  | sequence items => exact Follows.foldlM (fun _ item => hself _) items Term.null
  | application operator operands =>
      apply (hself _).bind
      intro callee
      exact (Follows.mapM (fun operand => hself _) operands).bind fun arguments => hself _
  | _ => exact Follows.refl _

theorem follows_step {permitted : Primitive → List Term → Bool} {machine other : Machine}
    (himitates : Imitates excused permitted machine other)
    (hself : ∀ task, Follows excused (self task) (further task)) {task : Task}
    (hpermitted : task.isPermitted permitted = true) :
    Follows excused (machine.step self task) (other.step further task) := by
  cases task with
  | eval evaluator term frame depth =>
      rw [step, step]
      split_ifs
      · rcases himitates.exceeds evaluator depth with hsame | ⟨limit, hlimit, hexcused⟩
        · rw [hsame]
          split
          · exact Follows.refl _
          · exact follows_stepNode hself evaluator frame depth term
        · rw [hlimit]
          exact Follows.of_halt hexcused _
      · exact Follows.refl _
  | apply evaluator callee arguments depth =>
      unfold step
      cases callee with
      | closure id params body home owner => exact (Follows.refl _).bind fun frame => hself _
      | primitive callable =>
          apply (Follows.refl _).bind
          intro _
          exact (follows_applyPrimitive himitates hself hpermitted).atCallbackDepth _ _
      | _ => exact Follows.refl _
  | call callee arguments =>
      unfold step
      cases callee with
      | closure id params body home owner => exact (Follows.refl _).bind fun store => hself _
      | primitive callable => exact follows_applyPrimitive himitates hself hpermitted
      | _ => exact Follows.refl _

end Steps

/-- A larger bound only goes on with runs that were unfinished. -/
theorem below_run (machine : Machine) {bound larger : Nat} (hle : bound ≤ larger) (task : Task) :
    Below (machine.run bound task) (machine.run larger task) := by
  rw [below_iff]
  induction bound generalizing larger task with
  | zero => exact Follows.of_unfinished _
  | succ bound ih =>
      cases larger with
      | zero => exact absurd hle (Nat.not_succ_le_zero bound)
      | succ larger =>
          apply follows_step (Imitates.refl (fun _ _ => true) machine)
          · exact fun task => ih (Nat.le_of_succ_le_succ hle) task
          · exact task.isPermitted_true

/-! ## Runs that apply only permitted primitives -/

/-- Runs a task like `run`, but stops before a primitive is applied at arguments for which this is
not permitted. -/
def runWithin (machine : Machine) (permitted : Primitive → List Term → Bool) :
    Nat → Task → Run Term
  | 0, _ => throw .unfinished
  | bound + 1, task =>
    if task.isPermitted permitted then machine.step (machine.runWithin permitted bound) task
    else throw .unfinished

/-- A run ends without applying a primitive where this is not permitted. -/
def EndsWithin (machine : Machine) (permitted : Primitive → List Term → Bool) (bound : Nat)
    (task : Task) (store : Store) : Prop :=
  (machine.runWithin permitted bound task store).1 ≠ .error .unfinished

theorem below_runWithin (machine : Machine) (permitted : Primitive → List Term → Bool)
    (bound : Nat) (task : Task) :
    Below (machine.runWithin permitted bound task) (machine.run bound task) := by
  rw [below_iff]
  induction bound generalizing task with
  | zero => exact Follows.of_unfinished _
  | succ bound ih =>
      rw [runWithin]
      split_ifs with hpermitted
      · exact follows_step (Imitates.refl permitted machine) ih hpermitted
      · exact Follows.of_unfinished _

theorem EndsWithin.run_eq {machine : Machine} {permitted : Primitive → List Term → Bool}
    {bound : Nat} {task : Task} {store : Store}
    (hends : machine.EndsWithin permitted bound task store) :
    machine.run bound task store = machine.runWithin permitted bound task store :=
  ((machine.below_runWithin permitted bound task store).resolve_left hends).symm

theorem runWithin_true (machine : Machine) :
    machine.runWithin (fun _ _ => true) = machine.run := by
  funext bound
  induction bound with
  | zero => rfl
  | succ bound ih =>
      funext task
      rw [runWithin, if_pos task.isPermitted_true, ih]
      rfl

def permits (permitted : Primitive → Bool) : Task → Bool
  | .apply _ (.primitive callable) _ _ | .call (.primitive callable) _ => permitted callable
  | _ => true

/-- Runs a task like `run`, but stops before a primitive is applied that is not permitted. -/
def runPermitted (machine : Machine) (permitted : Primitive → Bool) : Nat → Task → Run Term
  | 0, _ => throw .unfinished
  | bound + 1, task =>
    if permits permitted task then machine.step (machine.runPermitted permitted bound) task
    else throw .unfinished

/-- A run applies only permitted primitives when stopping at the others makes no difference. -/
def AppliesOnly (machine : Machine) (permitted : Primitive → Bool) (bound : Nat) (task : Task)
    (store : Store) : Prop :=
  machine.runPermitted permitted bound task store = machine.run bound task store

/-- Permissions that do not depend on the arguments are a case of those that do. -/
theorem runPermitted_eq_runWithin (machine : Machine) (permitted : Primitive → Bool) :
    machine.runPermitted permitted = machine.runWithin fun callable _ => permitted callable := by
  have hpermits : ∀ task, permits permitted task =
      task.isPermitted fun callable _ => permitted callable := by
    intro task
    unfold permits Task.isPermitted
    split <;> rfl
  funext bound
  induction bound with
  | zero => rfl
  | succ bound ih =>
      funext task
      rw [runPermitted, runWithin, hpermits, ih]

/-- A run that is finished although it is stopped at primitives that are not permitted applies none
of them. -/
theorem appliesOnly_of_finished {machine : Machine} {permitted : Primitive → Bool} {bound : Nat}
    {task : Task} {store : Store} {outcome : Except Halt Term}
    (houtcome : (machine.runPermitted permitted bound task store).1 = outcome)
    (hfinished : outcome ≠ .error .unfinished) :
    machine.AppliesOnly permitted bound task store := by
  rw [runPermitted_eq_runWithin] at houtcome
  have hends : machine.EndsWithin (fun callable _ => permitted callable) bound task store := by
    rwa [EndsWithin, houtcome]
  rw [AppliesOnly, runPermitted_eq_runWithin]
  exact hends.run_eq.symm

end Machine

end Rulebook
