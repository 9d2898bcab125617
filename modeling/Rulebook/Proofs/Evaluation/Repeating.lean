import Rulebook.Proofs.Evaluation.Discipline
import Rulebook.Proofs.Evaluation.Echoes
import Rulebook.Proofs.Evaluation.Restoring
import Rulebook.Proofs.Rule.Shielding

/-!
# Evaluations that only read

An expression that assigns and defines nothing, in an environment whose closures do not either, leaves
all frames as they were, as long as no primitives are applied but the core operations.  In a store that
such evaluations have led to, it does the same again: it ends with the same fault or with the same
value, up to the numbers of what it has created.
-/

namespace Rulebook

def Task.rename (ρ : Renaming) : Task → Task
  | .eval evaluator term frame depth => .eval evaluator (term.rename ρ) (ρ.frame frame) depth
  | .apply evaluator callee arguments depth =>
    .apply evaluator (callee.rename ρ) (arguments.map (Term.rename ρ)) depth
  | .call callee arguments => .call (callee.rename ρ) (arguments.map (Term.rename ρ))

/-- Whether a task only reads what lies in a territory, and does not come from a host function. -/
def Task.OnlyReads (T : Territory) (store : Store) : Task → Prop
  | .eval _ term frame _ => T.home store frame ∧ T.Holds store term ∧ term.OnlyReads
  | .apply _ callee arguments _ => T.Holds store callee ∧
    ∀ argument ∈ arguments, T.Holds store argument
  | .call .. => False

def Store.Copied (origin : Store) (roots : List Term) (ρ : Renaming) (store : Store)
    (value other : Term) : Prop :=
  (Territory.reading origin roots).Holds store value ∧ other = value.rename ρ

namespace Store.Echoes

open Run

variable {origin first second : Store} {roots : List Term} {ρ : Renaming} {machine : Machine}

theorem copied_later {before after : Store} (hlater : Later before after) {value other : Term}
    (hcopied : Copied origin roots ρ before value other) :
    Copied origin roots ρ after value other :=
  ⟨Territory.stays_reading.holds hlater hcopied.1, hcopied.2⟩

theorem copied_all {store : Store} {values others : List Term}
    (hcopied : List.Forall₂ (Copied origin roots ρ store) values others) :
    (∀ value ∈ values, (Territory.reading origin roots).Holds store value) ∧
      others = values.map (Term.rename ρ) := by
  induction hcopied with
  | nil => exact ⟨fun _ hvalue => absurd hvalue List.not_mem_nil, rfl⟩
  | cons hvalue _ ih => exact ⟨List.forall_mem_cons.mpr ⟨hvalue.1, ih.1⟩, by rw [hvalue.2, ih.2]; rfl⟩

/-! ## Operations -/

theorem inStep_lookup (hechoes : Echoes origin roots ρ first second) {frame : FrameId}
    (hframe : origin.Known roots frame) (name : String) :
    InStep (Echoes origin roots ρ) (Copied origin roots ρ) (Run.lookup frame name)
      (Run.lookup (ρ.frame frame) name) first second := by
  apply inStep_get
  rw [hechoes.lookup?_eq hframe]
  cases hvalue : first.lookup? frame name with
  | none => exact inStep_fail hechoes _
  | some value => exact inStep_pure hechoes ⟨hechoes.guards.lookup? hframe hvalue, rfl⟩

theorem inStep_refuse (hechoes : Echoes origin roots ρ first second) {value : Term}
    (hvalue : (Territory.reading origin roots).Holds first value) :
    InStep (Echoes origin roots ρ) (Copied origin roots ρ) (Machine.refuse value)
      (Machine.refuse (value.rename ρ)) first second := by
  apply inStep_get
  rw [hechoes.display?_eq hvalue]
  exact inStep_fail hechoes _

theorem inStep_close (hechoes : Echoes origin roots ρ first second) (params : List String)
    {body : Term} {home : FrameId} (hhome : (Territory.reading origin roots).home first home)
    (hbody : (Territory.reading origin roots).Holds first body) (hreads : body.OnlyReads)
    (owner : Option EvaluatorId) :
    InStep (Echoes origin roots ρ) (Copied origin roots ρ) (Machine.close params body home owner)
      (Machine.close params (body.rename ρ) (ρ.frame home) owner) first second := by
  have hlater : Later first
      ({ first with closures := first.closures + 1 }.log (.closureCreated params)) :=
    .of_frames_eq rfl ⟨[.closureCreated params], by simp [Store.log]⟩
  have hclosure : (Territory.reading origin roots).Holds first
      (.closure first.closures params body home owner) :=
    .closure hhome hbody hreads owner trivial _
  have hnumber : ρ.closure first.closures = second.closures := hechoes.closures 0
  refine .of_eq rfl rfl (.ok ⟨Territory.stays_reading.holds hlater hclosure, ?_⟩)
    (hechoes.create.log _ _) hlater
  rw [Term.rename, hnumber]

theorem inStep_enter (hechoes : Echoes origin roots ρ first second) (params : List String)
    {home : FrameId} (hhome : (Territory.reading origin roots).home first home)
    {arguments : List Term}
    (harguments : ∀ argument ∈ arguments, (Territory.reading origin roots).Holds first argument) :
    InStep (Echoes origin roots ρ) (fun store frame other =>
        (Territory.reading origin roots).home store frame ∧ other = ρ.frame frame)
      (Run.enter params home arguments)
      (Run.enter params (ρ.frame home) (arguments.map (Term.rename ρ))) first second := by
  have hextended := hechoes.extend (params.zip arguments)
    (fun pair hpair => harguments pair.2 (List.of_mem_zip hpair).2) hhome
  rw [← Bindings.zip_rename] at hextended
  have hlater : Later first ((first.extend (some home) (params.zip arguments)).1.log
      (.frameEntered params)) :=
    (Resumes.push first _).toLater.trans (Resumes.log _ _).toLater
  have hnew : origin.Known roots first.frames.size := Or.inr hechoes.keeps.size
  have hsize : first.frames.size < (first.extend (some home) (params.zip arguments)).1.frames.size := by
    simp [Store.extend, Store.push]
  unfold Run.enter Run.extend
  rw [List.length_map]
  split_ifs
  · exact inStep_fail hechoes _
  · exact .of_eq rfl rfl (.ok ⟨⟨hnew, hsize⟩, (hechoes.size 0).symm⟩) (hextended.log _ _) hlater

theorem inStep_atCallbackDepth (hechoes : Echoes origin roots ρ first second)
    {evaluator : EvaluatorId} {depth : Nat} {run other : Run Term}
    (hruns : InStep (Echoes origin roots ρ) (Copied origin roots ρ) run other
      (first.setCallbackDepth evaluator depth) (second.setCallbackDepth evaluator depth)) :
    InStep (Echoes origin roots ρ) (Copied origin roots ρ)
      (Run.atCallbackDepth evaluator depth run) (Run.atCallbackDepth evaluator depth other) first
      second := by
  obtain ⟨houtcome, hrelated, hlater⟩ := hruns
  have hrestored := Later.setCallbackDepth
    (run (first.setCallbackDepth evaluator depth)).2 evaluator (first.callbackDepth evaluator)
  constructor
  · exact houtcome.mono fun _ _ => copied_later hrestored
  · rw [Run.atCallbackDepth, Run.atCallbackDepth, hechoes.depth]
    exact hrelated.setCallbackDepth evaluator (first.callbackDepth evaluator)
  · exact (Later.setCallbackDepth first evaluator depth).trans (hlater.trans hrestored)

/-! ## Core operations -/

theorem holds_opened (hechoes : Echoes origin roots ρ first second) (machine : Machine)
    {term : Term} (hterm : (Territory.reading origin roots).Holds first term) :
    (Territory.reading origin roots).Holds first (machine.opened first term) := by
  apply Territory.holds_opened machine _ _ hterm
  · exact fun hopened => hechoes.guards.value hopened.1
  · intro frame parent hopened hparent
    have hbefore := hechoes.parent frame parent hopened.1 hparent
    exact ⟨hechoes.guards.parent hopened.1 hparent, Nat.lt_trans hbefore hopened.2⟩

theorem shownOperands_eq (hechoes : Echoes origin roots ρ first second) (operation : CorePrimitive)
    {operands : List Term}
    (hoperands : ∀ operand ∈ operands, (Territory.reading origin roots).Holds first operand) :
    machine.shownOperands second operation (operands.map (Term.rename ρ)) =
      (machine.shownOperands first operation operands).map (Term.rename ρ) := by
  cases operands with
  | nil => cases operation <;> rfl
  | cons operand rest =>
      have hopened := hechoes.opened_eq machine (hoperands operand List.mem_cons_self)
      cases operation with
      | hasProperty => simp only [List.map_cons, Machine.shownOperands, hopened]
      | getProperty => simp only [List.map_cons, Machine.shownOperands, hopened]
      | _ => rfl

theorem inStep_applyCore (hechoes : Echoes origin roots ρ first second) (machine : Machine)
    (operation : CorePrimitive) {operands : List Term}
    (hoperands : ∀ operand ∈ operands, (Territory.reading origin roots).Holds first operand) :
    InStep (Echoes origin roots ρ) (Copied origin roots ρ) (machine.applyCore operation operands)
      (machine.applyCore operation (operands.map (Term.rename ρ))) first second := by
  have hyields : Term.Yields ((Territory.reading origin roots).Holds first)
      (operation.apply (machine.shownOperands first operation operands)) := by
    apply Territory.yields_applyCore (hechoes.holds_opened machine) _ hoperands
    intro id params body home owner key rest value _ hshape hvalue
    subst hshape
    have hclosure := hoperands _ List.mem_cons_self
    exact Territory.holds_closureAttribute (fun _ _ => hclosure.self.1) hclosure hvalue
  apply inStep_get
  change InStep _ _
    (Run.ofExcept (operation.apply (machine.shownOperands first operation operands)))
    (Run.ofExcept (operation.apply
      (machine.shownOperands second operation (operands.map (Term.rename ρ))))) _ _
  rw [hechoes.shownOperands_eq operation hoperands, CorePrimitive.apply_rename]
  apply inStep_ofExcept hechoes
  cases houtcome : operation.apply (machine.shownOperands first operation operands) with
  | error fault => exact .error fault
  | ok value => exact .ok ⟨hyields value houtcome, rfl⟩

/-! ## Steps -/

section Steps

variable {self : Task → Run Term}

/-- Tasks that only read do the same in an echoing store, as long as only core operations are
applied. -/
def Respected (origin : Store) (roots : List Term) (ρ : Renaming) (self : Task → Run Term) : Prop :=
  ∀ {task first second}, Echoes origin roots ρ first second →
    task.OnlyReads (.reading origin roots) first →
      Tracks origin.CoreOnly (Echoes origin roots ρ) (Copied origin roots ρ) (self task)
        (self (task.rename ρ)) first second

theorem shrinks_coreOnly (origin : Store) : Shrinks origin.CoreOnly :=
  fun _ _ hlater hcore => hcore.of_later hlater

theorem tracks_stepNode (hself : Respected origin roots ρ self)
    (hmoves : ∀ task, Moves Resumes (self task)) (hechoes : Echoes origin roots ρ first second)
    {evaluator : EvaluatorId} {frame : FrameId} {depth : Nat} {term : Term}
    (hhome : (Territory.reading origin roots).home first frame)
    (hterm : (Territory.reading origin roots).Holds first term) (hreads : term.OnlyReads)
    (hnode : term.isNode = true) :
    Tracks origin.CoreOnly (Echoes origin roots ρ) (Copied origin roots ρ)
      (Machine.stepNode self evaluator frame depth term)
      (Machine.stepNode self evaluator (ρ.frame frame) depth (term.rename ρ)) first second := by
  have hcounts := shrinks_coreOnly origin
  have hstays : (Territory.reading origin roots).Stays := Territory.stays_reading
  have hbegin := (Resumes.refl first).toLater
  have hpart : ∀ {kind part}, term.kind? = some kind → kind ≠ .quoted → part ∈ term.contents →
      ∀ after after', Echoes origin roots ρ after after' → Later first after →
        Tracks origin.CoreOnly (Echoes origin roots ρ) (Copied origin roots ρ)
          (self (.eval evaluator part frame (depth + 1)))
          (self (.eval evaluator (part.rename ρ) (ρ.frame frame) (depth + 1))) after after' := by
    intro kind part hkind hquoted hpart after after' hafter hlater
    exact hself hafter ⟨hstays.home hlater hhome, hstays.holds hlater (hterm.of_mem hpart),
      fun access haccess => hreads access (Term.accesses_subset hkind hquoted hpart haccess)⟩
  cases term with
  | «variable» name => exact (hechoes.inStep_lookup hhome.1 name).tracks
  | quoted value => exact (inStep_pure hechoes ⟨hterm.of_mem List.mem_cons_self, rfl⟩).tracks
  -- An expression that only reads has no such uses of names.
  | assignment target value => cases hreads (.assign target) List.mem_cons_self
  | definition target value => cases hreads (.define target) List.mem_cons_self
  | conditional predicate consequent alternative =>
      have hpart' := @hpart .conditional
      apply (hpart' rfl (by simp) List.mem_cons_self _ _ hechoes hbegin).bind hcounts
      · intro condition
        split_ifs <;> exact hmoves _
      rintro condition _ after after' hafter hlater ⟨_, rfl⟩
      rw [Term.isTruthy_rename]
      split_ifs
      · exact hpart' rfl (by simp) (by simp [Term.contents]) _ _ hafter hlater
      · exact hpart' rfl (by simp) (by simp [Term.contents]) _ _ hafter hlater
  | sequence items =>
      rw [Term.rename, Term.renameAll_eq_map]
      have hnull : Copied origin roots ρ first .null .null :=
        ⟨(Territory.hereditary _ first).scalar _, rfl⟩
      refine tracks_foldlM hcounts hechoes (fun _ _ => hmoves _) hnull ?_
      intro _ _ item hitem after after' hafter hlater
      exact @hpart .sequence item rfl (by simp) hitem _ _ hafter hlater
  | lambda params body =>
      exact (hechoes.inStep_close params hhome (hterm.of_mem List.mem_cons_self) hreads _).tracks
  | application operator operands =>
      have hpart' := @hpart .application
      rw [Term.rename, Term.renameAll_eq_map]
      apply (hpart' rfl (by simp) List.mem_cons_self _ _ hechoes hbegin).bind hcounts
      · intro callee
        exact runOrder_resumes.bind (runOrder_resumes.mapM fun _ _ => hmoves _) fun _ => hmoves _
      rintro callee _ after after' hafter hlater ⟨hcallee, rfl⟩
      have harguments : Tracks origin.CoreOnly (Echoes origin roots ρ)
          (fun store => List.Forall₂ (Copied origin roots ρ store))
          (operands.mapM fun operand => self (.eval evaluator operand frame (depth + 1)))
          ((operands.map (Term.rename ρ)).mapM fun operand =>
            self (.eval evaluator operand (ρ.frame frame) (depth + 1))) after after' := by
        refine tracks_mapM hcounts hafter (fun _ => hmoves _)
          (fun _ _ _ _ hlater' => copied_later hlater') ?_
        intro operand hoperand last last' hlast hlater'
        exact hpart' rfl (by simp) (List.mem_cons_of_mem operator hoperand) _ _ hlast
          (hlater.trans hlater')
      apply harguments.bind hcounts fun _ => hmoves _
      intro values _ last last' hlast hlater' hvalues
      obtain ⟨hheld, rfl⟩ := copied_all hvalues
      exact hself hlast ⟨hstays.holds hlater' hcallee, hheld⟩
  | mystery => exact (inStep_fail hechoes _).tracks
  | _ => cases hnode

end Steps

section Runs

variable {bound : Nat}

/-- A primitive that is applied is noted first, and has to be a core operation. -/
theorem tracks_applyPrimitive (hechoes : Echoes origin roots ρ first second)
    (evaluator : EvaluatorId) (depth : Nat) (callable : Primitive) {arguments : List Term}
    (harguments : ∀ argument ∈ arguments, (Territory.reading origin roots).Holds first argument) :
    Tracks origin.CoreOnly (Echoes origin roots ρ) (Copied origin roots ρ)
      (machine.step (machine.run bound) (.apply evaluator (.primitive callable) arguments depth))
      (machine.step (machine.run bound) (.apply evaluator (.primitive (callable.rename ρ))
        (arguments.map (Term.rename ρ)) depth)) first second := by
  intro hend
  have hmoves := machine.later_applyPrimitive bound evaluator depth callable arguments
  have hlogged : origin.CoreOnly (first.log (.hostApplied callable arguments)) :=
    hend.of_later (hmoves (first.log (.hostApplied callable arguments)))
  obtain ⟨operation, rfl⟩ := hlogged.of_log hechoes.later.trace_size
  have hafter := hechoes.log (.hostApplied (.core operation) arguments)
    (.hostApplied (.core operation) (arguments.map (Term.rename ρ)))
  have hlater := (Resumes.log first (.hostApplied (.core operation) arguments)).toLater
  have hinside := hlater.trans (Later.setCallbackDepth _ evaluator depth)
  have hcore := (hafter.setCallbackDepth evaluator depth).inStep_applyCore machine
    operation (Territory.stays_reading.forall_holds hinside harguments)
  obtain ⟨houtcome, hrelated, hresult⟩ := hafter.inStep_atCallbackDepth hcore
  exact ⟨houtcome, hrelated, hlater.trans hresult⟩

theorem respected_step (hself : Respected origin roots ρ (machine.run bound)) :
    Respected origin roots ρ (machine.step (machine.run bound)) := by
  intro task first second hechoes hreads
  cases task with
  | eval evaluator term frame depth =>
      obtain ⟨hhome, hterm, hreads⟩ := hreads
      rw [Task.rename, Machine.step, Machine.step, Term.isNode_rename]
      split_ifs with hnode
      · split
        · exact (inStep_fail hechoes _).tracks
        · exact tracks_stepNode hself (machine.resumes_run bound) hechoes hhome hterm hreads hnode
      · exact (inStep_pure hechoes ⟨hterm, rfl⟩).tracks
  | apply evaluator callee arguments depth =>
      obtain ⟨hcallee, harguments⟩ := hreads
      cases callee with
      | closure id params body home owner =>
          obtain ⟨hhome, hbody, _⟩ := hcallee.self
          have henter := hechoes.inStep_enter params hhome harguments
          apply henter.tracks.bind (shrinks_coreOnly origin) fun _ => machine.resumes_run bound _
          rintro frame _ after after' hafter hlater ⟨hframe, rfl⟩
          have hheld := Territory.stays_reading.holds hlater (hcallee.of_mem List.mem_cons_self)
          exact hself hafter ⟨hframe, hheld, hbody⟩
      | primitive callable =>
          exact tracks_applyPrimitive hechoes evaluator depth callable harguments
      | _ => exact (hechoes.inStep_refuse hcallee).tracks
  | call callee arguments => exact hreads.elim

/-- A run that only reads does the same in an echoing store. -/
theorem respected_run (machine : Machine) (bound : Nat) :
    Respected origin roots ρ (machine.run bound) := by
  induction bound with
  | zero => exact fun hechoes _ => (inStep_throw hechoes _).tracks
  | succ bound ih => exact respected_step ih

theorem tracks_evaluate (machine : Machine) (bound : Nat) (evaluator : EvaluatorId)
    (hechoes : Echoes origin roots ρ first second) {term : Term} {frame : FrameId}
    (hhome : (Territory.reading origin roots).home first frame)
    (hterm : (Territory.reading origin roots).Holds first term) (hreads : term.OnlyReads) :
    Tracks origin.CoreOnly (Echoes origin roots ρ) (Copied origin roots ρ)
      (machine.evaluate bound evaluator term frame)
      (machine.evaluate bound evaluator (term.rename ρ) (ρ.frame frame)) first second := by
  intro hend
  apply inStep_get
  rw [hechoes.depth]
  have htask : (Task.eval evaluator term frame (first.callbackDepth evaluator)).OnlyReads
      (.reading origin roots) first := ⟨hhome, hterm, hreads⟩
  exact respected_run machine bound hechoes htask hend

end Runs

end Store.Echoes

end Rulebook
