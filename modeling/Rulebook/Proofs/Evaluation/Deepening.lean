import Rulebook.Proofs.Evaluation.Guards
import Rulebook.Proofs.Evaluation.Limits
import Rulebook.Proofs.Evaluation.Restoring

/-!
# Evaluating deeper

Without a limit it makes no difference how deep an evaluator begins.  What it does is the same at
every depth, and so is what the other evaluators do: all that changes is how deep this evaluator is
inside its host applications.  There is one way to notice it, which is to ask the evaluator for its
callback depth.
-/

namespace Rulebook

/-- Whether the application of a primitive does not ask an evaluator for its callback depth. -/
def Primitive.ignoresDepth (evaluator : EvaluatorId) : Primitive → List Term → Bool
  | .core .getProperty, .evaluator asked :: key :: _ =>
    asked ≠ evaluator || key.text? ≠ some "_callback_depth"
  | _, _ => true

/-- Whether a task does not ask an evaluator for its callback depth. -/
def Task.ignoresDepth (evaluator : EvaluatorId) (task : Task) : Bool :=
  task.isPermitted (Primitive.ignoresDepth evaluator)

/-- Two tasks differ at most in how deep one evaluator is. -/
inductive Task.Apart (evaluator : EvaluatorId) : Task → Task → Prop
  | eval {running : EvaluatorId} (term : Term) (frame : FrameId) {depth depth' : Nat}
      (hdepth : running ≠ evaluator → depth = depth') :
      Apart evaluator (.eval running term frame depth) (.eval running term frame depth')
  | apply {running : EvaluatorId} (callee : Term) (arguments : List Term) {depth depth' : Nat}
      (hdepth : running ≠ evaluator → depth = depth') :
      Apart evaluator (.apply running callee arguments depth)
        (.apply running callee arguments depth')
  | call (callee : Term) (arguments : List Term) :
      Apart evaluator (.call callee arguments) (.call callee arguments)

/-! ## Stores that differ in one callback depth -/

/-- Two stores differ only in the callback depth of one evaluator and in what the trace begins
with. -/
abbrev Store.Apart (evaluator : EvaluatorId) : List Event → List Event → Store → Store → Prop :=
  Store.Beside fun depths depths' => ∀ other, other ≠ evaluator →
    depths.getD other 0 = depths'.getD other 0

namespace Store.Apart

variable {evaluator : EvaluatorId} {past past' : List Event} {first second : Store}

theorem callbackDepth (hstores : Apart evaluator past past' first second) {running : EvaluatorId}
    (hrunning : running ≠ evaluator) : first.callbackDepth running = second.callbackDepth running :=
  hstores.depths running hrunning

theorem setCallbackDepth (hstores : Apart evaluator past past' first second)
    {running : EvaluatorId} {depth depth' : Nat} (hdepth : running ≠ evaluator → depth = depth') :
    Apart evaluator past past' (first.setCallbackDepth running depth)
      (second.setCallbackDepth running depth') := by
  apply Beside.setCallbackDepth hstores
  intro other hother
  rw [getD_setDepth, getD_setDepth]
  split_ifs with hsame
  · exact hdepth (hsame ▸ hother)
  · exact hstores.depths other hother

end Store.Apart

namespace Machine

section Attributes

variable {machine : Machine} {first second : Store} {evaluator asked : EvaluatorId} {name : String}

theorem find?_attributes_of_ne_depth (hname : name ≠ "_callback_depth") (first second : Store)
    (asked : EvaluatorId) :
    Entries.find? (.str name) (Term.fieldsOf (machine.evaluatorAttributes first asked)) =
      Entries.find? (.str name) (Term.fieldsOf (machine.evaluatorAttributes second asked)) := by
  have hne : (Scalar.str "_callback_depth").equal (.str name) = false :=
    beq_eq_false_iff_ne.2 (Ne.symm hname)
  simp [evaluatorAttributes, Term.fieldsOf, Entries.find?, List.find?_cons, hne]

theorem isSome_find?_attributes (name : String) (first second : Store) (asked : EvaluatorId) :
    (Entries.find? (.str name)
        (Term.fieldsOf (machine.evaluatorAttributes first asked))).isSome =
      (Entries.find? (.str name)
        (Term.fieldsOf (machine.evaluatorAttributes second asked))).isSome := by
  by_cases hname : name = "_callback_depth"
  · subst hname
    rfl
  · rw [find?_attributes_of_ne_depth hname first second]

theorem opened_of_callbackDepth_eq
    (hdepth : first.callbackDepth asked = second.callbackDepth asked) :
    machine.opened first (.evaluator asked) = machine.opened second (.evaluator asked) := by
  rw [opened, opened, evaluatorAttributes, evaluatorAttributes, hdepth]

theorem opened_scope_of_frames_eq (hframes : first.frames = second.frames) (frame : FrameId) :
    machine.opened first (.scope frame) = machine.opened second (.scope frame) := by
  rw [opened, opened, Store.scopeAttributes_of_frames_eq hframes]

end Attributes

end Machine

/-! ## Runs that may be stopped -/

namespace Run

/-- A run was stopped, and has left a mark. -/
def Stopped (mark : Nat) (result : Except Halt α × Store) : Prop :=
  result.1 = .error .unfinished ∧ result.2.closures = mark

/-- Unless the first run is stopped, both runs do the same. -/
def SameUnless (mark : Nat) (R : Store → Store → Prop) (run other : Run α)
    (first second : Store) : Prop :=
  Stopped mark (run first) ∨ Same R run other first second

namespace SameUnless

open Store

variable {mark : Nat} {R : Store → Store → Prop} {first second : Store}

theorem bind {run other : Run α} {next further : α → Run β}
    (hruns : SameUnless mark R run other first second)
    (hnext : ∀ value after after', R after after' →
      SameUnless mark R (next value) (further value) after after') :
    SameUnless mark R (run >>= next) (other >>= further) first second := by
  rcases hfirst : run first with ⟨outcome, after⟩
  rcases hsecond : other second with ⟨outcome', after'⟩
  rcases hruns with hstopped | ⟨houtcome, hrelated, hlater⟩
  · left
    rw [hfirst] at hstopped
    obtain ⟨rfl, hmark⟩ := hstopped
    rw [bind_of_halt hfirst]
    exact ⟨rfl, hmark⟩
  · simp only [hfirst, hsecond] at houtcome hrelated hlater
    cases houtcome with
    | error halt =>
        exact .inr (.of_eq (bind_of_halt hfirst next) (bind_of_halt hsecond further) (.error halt)
          hrelated hlater)
    | ok hvalue =>
        subst hvalue
        rcases hnext _ after after' hrelated with hstopped | hsame
        · left
          rw [bind_of_ok hfirst]
          exact hstopped
        · right
          exact .of_eq (bind_of_ok hfirst next) (bind_of_ok hsecond further) hsame.outcome
            hsame.related (hlater.trans hsame.later)

theorem mapM {f g : α → Run β} {items : List α} (hstores : R first second)
    (hf : ∀ item after after', R after after' →
      SameUnless mark R (f item) (g item) after after') :
    SameUnless mark R (items.mapM f) (items.mapM g) first second := by
  induction items generalizing first second with
  | nil => exact .inr (inStep_pure hstores rfl)
  | cons item rest ih =>
      rw [List.mapM_cons, List.mapM_cons]
      apply (hf item first second hstores).bind
      intro value after after' hafter
      apply (ih hafter).bind
      exact fun values last last' hlast => .inr (inStep_pure hlast rfl)

theorem foldlM {f g : β → α → Run β} {items : List α} {start : β} (hstores : R first second)
    (hf : ∀ value item after after', R after after' →
      SameUnless mark R (f value item) (g value item) after after') :
    SameUnless mark R (items.foldlM f start) (items.foldlM g start) first second := by
  induction items generalizing first second start with
  | nil => exact .inr (inStep_pure hstores rfl)
  | cons item rest ih =>
      rw [List.foldlM_cons, List.foldlM_cons]
      apply (hf start item first second hstores).bind
      exact fun value after after' hafter => ih hafter

theorem observe {run other : Run α} (hruns : SameUnless mark R run other first second) :
    SameUnless mark R (Run.observe run) (Run.observe other) first second := by
  rcases hruns with ⟨hunfinished, hmark⟩ | hsame
  · left
    rcases hfirst : run first with ⟨outcome, after⟩
    rw [hfirst] at hunfinished hmark
    cases hunfinished
    rw [Run.observe, hfirst]
    exact ⟨rfl, hmark⟩
  · right
    obtain ⟨houtcome, hrelated, hlater⟩ := hsame.observe
    refine ⟨houtcome.mono ?_, hrelated, hlater⟩
    exact fun _ _ houtcome' => houtcome'.eq

theorem get {next further : Store → Run α}
    (hnext : SameUnless mark R (next first) (further second) first second) :
    SameUnless mark R (get >>= next) (get >>= further) first second :=
  hnext.imp id inStep_get

variable {evaluator : EvaluatorId} {past past' : List Event}

theorem atCallbackDepth (hstores : Apart evaluator past past' first second) {run other : Run α}
    {running : EvaluatorId} {depth depth' : Nat}
    (hruns : SameUnless mark (Apart evaluator past past') run other
      (first.setCallbackDepth running depth) (second.setCallbackDepth running depth')) :
    SameUnless mark (Apart evaluator past past') (Run.atCallbackDepth running depth run)
      (Run.atCallbackDepth running depth' other) first second := by
  rcases hruns with hstopped | ⟨houtcome, hrelated, hlater⟩
  · exact .inl hstopped
  · right
    exact {
      outcome := houtcome
      related := Apart.setCallbackDepth hrelated (Apart.callbackDepth hstores)
      later := (Later.setCallbackDepth first running depth).trans
        (hlater.trans (.setCallbackDepth _ _ _)) }

end SameUnless

end Run

/-! ## Steps and runs -/

namespace Machine

open Run Store

variable {mark : Nat} {evaluator : EvaluatorId} {past past' : List Event} {machine : Machine}
  {first second : Store}

/-- Wherever they run, tasks that differ in how deep the evaluator is do the same, unless the first
of them is stopped. -/
def IgnoresDepth (mark : Nat) (evaluator : EvaluatorId) (past past' : List Event)
    (self further : Task → Run Term) : Prop :=
  ∀ {task other : Task} {first second : Store}, task.Apart evaluator other →
    Apart evaluator past past' first second →
      SameUnless mark (Apart evaluator past past') (self task) (further other) first second

section Steps

variable {self further : Task → Run Term}

theorem same_applyCore_apart (hstores : Apart evaluator past past' first second)
    {operation : CorePrimitive} {operands : List Term}
    (hignores : Primitive.ignoresDepth evaluator (.core operation) operands = true) :
    Same (Apart evaluator past past') (machine.applyCore operation operands)
      (machine.applyCore operation operands) first second := by
  have hsame : ∀ {x y : Except Fault Term}, x = y →
      Same (Apart evaluator past past') (Run.ofExcept x) (Run.ofExcept y) first second := by
    rintro x _ rfl
    exact inStep_ofExcept hstores (.refl (fun _ => rfl) x)
  apply inStep_get
  apply hsame
  cases operation with
  | hasProperty =>
      rcases operands with _ | ⟨term, keys⟩
      · rfl
      change CorePrimitive.hasProperty.apply (machine.opened first term :: keys) =
        CorePrimitive.hasProperty.apply (machine.opened second term :: keys)
      cases term with
      | scope frame => rw [opened_scope_of_frames_eq hstores.frames]
      | evaluator asked => exact hasProperty_evaluator (isSome_find?_attributes · _ _ asked) keys
      | _ => rfl
  | getProperty =>
      rcases operands with _ | ⟨term, keys⟩
      · rfl
      change CorePrimitive.getProperty.apply (machine.opened first term :: keys) =
        CorePrimitive.getProperty.apply (machine.opened second term :: keys)
      cases term with
      | scope frame => rw [opened_scope_of_frames_eq hstores.frames]
      | evaluator asked =>
          by_cases hasked : asked = evaluator
          · -- All attributes but one are the same in every store.
            apply getProperty_evaluator fun _ hname => find?_attributes_of_ne_depth hname _ _ asked
            cases keys with
            | nil => exact fun key hkey => absurd hkey (Option.not_mem_none key)
            | cons key rest =>
                rintro _ ⟨⟩
                simpa [Primitive.ignoresDepth, hasked] using hignores
          · rw [opened_of_callbackDepth_eq (Apart.callbackDepth hstores hasked)]
      | _ => rfl
  | _ => rfl

theorem sameUnless_callEvaluator (hself : IgnoresDepth mark evaluator past past' self further)
    (hstores : Apart evaluator past past' first second) (running : EvaluatorId)
    (method : EvaluatorMethod) (arguments : List Term) :
    SameUnless mark (Apart evaluator past past') (callEvaluator self running method arguments)
      (callEvaluator further running method arguments) first second := by
  have hdepth : running ≠ evaluator →
      first.callbackDepth running = second.callbackDepth running :=
    Apart.callbackDepth hstores
  unfold callEvaluator
  split
  · apply SameUnless.get
    split
    · exact hself (.eval _ _ hdepth) hstores
    · split_ifs
      · exact .inr (inStep_fail hstores _)
      · exact .inr (inStep_pure hstores rfl)
  · split_ifs
    · apply SameUnless.get
      refine SameUnless.bind (.inr (same_itemsOf hstores _)) ?_
      exact fun items after after' hafter => hself (.apply _ _ hdepth) hafter
    · exact .inr (same_refuse hstores _)
  · exact .inr (inStep_fail hstores _)

theorem sameUnless_ofProgram (hself : IgnoresDepth mark evaluator past past' self further)
    (hstores : Apart evaluator past past' first second) (program : HostProgram) :
    SameUnless mark (Apart evaluator past past')
      (Run.ofProgram (fun callee arguments => self (.call callee arguments)) program)
      (Run.ofProgram (fun callee arguments => further (.call callee arguments)) program) first
      second := by
  induction program generalizing first second with
  | done outcome => exact .inr (inStep_ofExcept hstores (.refl (fun _ => rfl) _))
  | call callee arguments next ih =>
      apply (hself (.call callee arguments) hstores).observe.bind
      exact fun outcome after after' hafter => ih outcome hafter
  | note tag next ih =>
      refine SameUnless.bind (.inr (same_note hstores tag)) ?_
      exact fun _ after after' hafter => ih hafter

theorem sameUnless_applyPrimitive (hself : IgnoresDepth mark evaluator past past' self further)
    (hstores : Apart evaluator past past' first second) {callable : Primitive} {arguments : List Term}
    (hignores : Primitive.ignoresDepth evaluator callable arguments = true) :
    SameUnless mark (Apart evaluator past past') (machine.applyPrimitive self callable arguments)
      (machine.applyPrimitive further callable arguments) first second := by
  cases callable with
  | core operation => exact .inr (same_applyCore_apart hstores hignores)
  | host name => exact sameUnless_ofProgram hself hstores _
  | method method =>
      cases method with
      | scope method frame => exact .inr (same_callScope hstores frame method arguments)
      | evaluator method running =>
          exact sameUnless_callEvaluator hself hstores running method arguments
      | bind _ params home => exact .inr (same_bindArguments hstores params home arguments)

theorem sameUnless_stepNode (hself : IgnoresDepth mark evaluator past past' self further)
    (hstores : Apart evaluator past past' first second) {running : EvaluatorId} {depth depth' : Nat}
    (hdepth : running ≠ evaluator → depth = depth') (frame : FrameId) (term : Term) :
    SameUnless mark (Apart evaluator past past') (stepNode self running frame depth term)
      (stepNode further running frame depth' term) first second := by
  have hdeeper : running ≠ evaluator → depth + 1 = depth' + 1 :=
    fun hrunning => congrArg (· + 1) (hdepth hrunning)
  have hpart : ∀ part first second, Apart evaluator past past' first second →
      SameUnless mark (Apart evaluator past past') (self (.eval running part frame (depth + 1)))
        (further (.eval running part frame (depth' + 1))) first second :=
    fun part first second => hself (.eval part frame hdeeper)
  cases term with
  | «variable» name => exact .inr (same_lookup hstores frame name)
  | quoted value => exact .inr (inStep_pure hstores rfl)
  | assignment target value =>
      apply (hpart value _ _ hstores).bind
      exact fun value after after' hafter => .inr (same_assign hafter frame target value)
  | definition target value =>
      apply (hpart value _ _ hstores).bind
      exact fun value after after' hafter => .inr (same_define hafter frame target value)
  | conditional predicate consequent alternative =>
      apply (hpart predicate _ _ hstores).bind
      intro condition after after' hafter
      split_ifs
      · exact hpart consequent _ _ hafter
      · exact hpart alternative _ _ hafter
  | sequence items =>
      exact .foldlM hstores fun _ item _ _ hafter => hpart item _ _ hafter
  | lambda params body => exact .inr (same_close hstores params body frame (some running))
  | application operator operands =>
      apply (hpart operator _ _ hstores).bind
      intro callee after after' hafter
      apply (SameUnless.mapM hafter fun operand _ _ hstores' => hpart operand _ _ hstores').bind
      exact fun arguments last last' hlast => hself (.apply callee arguments hdeeper) hlast
  | _ => exact .inr (inStep_fail hstores _)

/-- No evaluator is stopped by its limit at one of the depths and not at the other. -/
theorem exceeds_apart (hlimit : machine.limit evaluator = none) {running : EvaluatorId}
    {depth depth' : Nat} (hdepth : running ≠ evaluator → depth = depth') :
    machine.exceeds running depth = machine.exceeds running depth' := by
  by_cases hrunning : running = evaluator
  · subst hrunning
    rw [exceeds, exceeds, hlimit]
    rfl
  · rw [hdepth hrunning]

theorem sameUnless_step (hlimit : machine.limit evaluator = none)
    (hself : IgnoresDepth mark evaluator past past' self further) {task other : Task}
    (htasks : task.Apart evaluator other) (hignores : task.ignoresDepth evaluator = true)
    (hstores : Apart evaluator past past' first second) :
    SameUnless mark (Apart evaluator past past') (machine.step self task)
      (machine.step further other) first second := by
  cases htasks with
  | @eval running term frame depth depth' hdepth =>
      rw [step, step, exceeds_apart hlimit hdepth]
      split_ifs
      · split
        · exact .inr (inStep_fail hstores _)
        · exact sameUnless_stepNode hself hstores hdepth frame term
      · exact .inr (inStep_pure hstores rfl)
  | @apply running callee arguments depth depth' hdepth =>
      unfold step
      cases callee with
      | closure id params body home owner =>
          refine SameUnless.bind (.inr (same_enter hstores params home arguments)) ?_
          exact fun frame after after' hafter => hself (.eval body frame hdepth) hafter
      | primitive callable =>
          refine SameUnless.bind (.inr (same_log hstores (.hostApplied callable arguments))) ?_
          intro _ after after' hafter
          apply SameUnless.atCallbackDepth hafter
          exact sameUnless_applyPrimitive hself (Apart.setCallbackDepth hafter hdepth) hignores
      | _ => exact .inr (same_refuse hstores _)
  | call callee arguments =>
      unfold step
      cases callee with
      | closure id params body home owner =>
          -- A callback goes on at the depth that it finds, and this may be the one that differs.
          apply SameUnless.get
          exact hself (.apply _ _ (Apart.callbackDepth hstores)) hstores
      | primitive callable => exact sameUnless_applyPrimitive hself hstores hignores
      | _ => exact .inr (inStep_fail hstores _)

end Steps

theorem sameUnless_runGuarded (hlimit : machine.limit evaluator = none) (mark bound : Nat) :
    IgnoresDepth mark evaluator past past'
      (machine.runGuarded (Task.ignoresDepth evaluator) (stop mark) bound)
      (machine.run bound) := by
  induction bound with
  | zero => exact fun _ hstores => .inr (inStep_throw hstores _)
  | succ bound ih =>
      intro task other first second htasks hstores
      rw [runGuarded]
      split_ifs with hignores
      · exact sameUnless_step hlimit ih htasks hignores hstores
      · exact .inl ⟨rfl, rfl⟩

/-- A run that does not ask the evaluator for its callback depth is the same at every depth: were it
stopped, it would end with whatever mark is left. -/
theorem same_of_heeds (hlimit : machine.limit evaluator = none) {task other : Task}
    (htasks : task.Apart evaluator other) (hstores : Apart evaluator past past' first second)
    (hheeds : machine.Heeds (Task.ignoresDepth evaluator) task first) (bound : Nat) :
    Same (Apart evaluator past past') (machine.run bound task) (machine.run bound other) first
      second := by
  have hmarked : ∀ mark, (machine.run bound task first).2.closures = mark ∨
      Same (Apart evaluator past past') (machine.run bound task) (machine.run bound other) first
        second := by
    intro mark
    have hruns := hheeds (stop mark) bound
    rcases sameUnless_runGuarded hlimit mark bound htasks hstores with hstopped | hsame
    · rw [hruns] at hstopped
      exact .inl hstopped.2
    · right
      exact ⟨hruns ▸ hsame.outcome, hruns ▸ hsame.related, hruns ▸ hsame.later⟩
  rcases hmarked 0 with hzero | hsame
  · exact (hmarked 1).resolve_left (by rw [hzero]; exact Nat.zero_ne_one)
  · exact hsame

end Machine
end Rulebook
