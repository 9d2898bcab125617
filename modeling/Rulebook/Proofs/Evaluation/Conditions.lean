import Rulebook.Primitive.Registry
import Rulebook.Proofs.Condition.Fragment
import Rulebook.Proofs.Evaluation.Calls
import Rulebook.Proofs.Primitive.Refusing

/-!
# Conditions leave nothing behind

A condition is read as literals, variables and calls by name.  Where all that can be called is the
core operations, evaluating such a tree looks up names and applies core operations, and nothing
else: the frames stay as they are, however the evaluation ends, and no limit matters to that.  It
ends with a value, or with a fault that is neither a wrong number of arguments nor a node without a
meaning, because core operations fail by refusing and nothing but core operations is called.
-/

namespace Rulebook

/-- The faults that are met where only core operations are called. -/
def Fault.isOrdinary : Fault → Bool
  | .unbound _ | .notApplicable _ | .tooDeep _ => true
  | fault => fault.isRefusal

theorem Fault.isOrdinary_of_isRefusal {fault : Fault} (hfault : fault.isRefusal = true) :
    fault.isOrdinary = true := by
  cases fault <;> first | rfl | exact hfault

theorem Fault.name?_of_isOrdinary {fault : Fault} (hfault : fault.isOrdinary = true) :
    fault.name? ≠ some "ArityMismatchError" ∧
      fault.name? ≠ some "UnknownExpressionKindError" := by
  cases fault <;> simp_all [Fault.isOrdinary, Fault.isRefusal, Fault.name?]

/-! ## Quiet runs -/

namespace Run

variable {α β : Type} {frames : Array Frame} {ends : Prop} {good : α → Prop}

/-- How a quiet run may end: with a value of some kind, with an ordinary fault, or unfinished, if
nothing makes sure that it ends. -/
def Ordinary (ends : Prop) (good : α → Prop) : Except Halt α → Prop
  | .ok value => good value
  | .error (.fault fault) => fault.isOrdinary = true
  | .error .unfinished => ¬ ends

/-- Wherever the frames are these, a run adds events only and ends in an ordinary way. -/
def Quiet (frames : Array Frame) (ends : Prop) (good : α → Prop) (run : Run α) : Prop :=
  ∀ store : Store, store.frames = frames →
    store.Logs (run store).2 ∧ Ordinary ends good (run store).1

theorem quiet_pure {value : α} (hvalue : good value) : Quiet frames ends good (pure value) :=
  fun store _ => ⟨.refl store, hvalue⟩

theorem quiet_unfinished (hends : ¬ ends) :
    Quiet frames ends good (throw .unfinished : Run α) :=
  fun store _ => ⟨.refl store, hends⟩

theorem quiet_fail {fault : Fault} (hfault : fault.isOrdinary = true) :
    Quiet frames ends good (fail fault : Run α) :=
  fun store _ => ⟨.refl store, hfault⟩

theorem Quiet.bind {run : Run α} {next : α → Run β} {better : β → Prop}
    (hrun : Quiet frames ends good run)
    (hnext : ∀ value, good value → Quiet frames ends better (next value)) :
    Quiet frames ends better (run >>= next) := by
  intro store hstore
  obtain ⟨hlogs, hends⟩ := hrun store hstore
  rcases hresult : run store with ⟨outcome, middle⟩
  rw [hresult] at hlogs hends
  cases outcome with
  | ok value =>
      obtain ⟨hlogs', hends'⟩ := hnext value hends middle (hlogs.frames.trans hstore)
      rw [bind_of_ok hresult]
      exact ⟨hlogs.trans hlogs', hends'⟩
  | error halt =>
      rw [bind_of_halt hresult]
      refine ⟨hlogs, ?_⟩
      cases halt <;> exact hends

theorem quiet_mapM {f : α → Run β} {items : List α}
    (hitems : ∀ item ∈ items, Quiet frames ends (fun _ => True) (f item)) :
    Quiet frames ends (fun _ => True) (items.mapM f) := by
  induction items with
  | nil => exact quiet_pure trivial
  | cons item rest ih =>
      rw [List.forall_mem_cons] at hitems
      rw [List.mapM_cons]
      exact hitems.1.bind fun value _ => (ih hitems.2).bind fun values _ => quiet_pure trivial

theorem Quiet.mono {run : Run α} {sure : Prop} {better : α → Prop}
    (hrun : Quiet frames ends good run) (hends : sure → ends)
    (hgood : ∀ value, good value → better value) : Quiet frames sure better run := by
  intro store hstore
  obtain ⟨hlogs, houtcome⟩ := hrun store hstore
  refine ⟨hlogs, ?_⟩
  rcases hresult : (run store).1 with (fault | _) | value
  · rw [hresult] at houtcome
    exact houtcome
  · rw [hresult] at houtcome
    exact fun hsure => houtcome (hends hsure)
  · rw [hresult] at houtcome
    exact hgood value houtcome

end Run

namespace Machine

open Run

variable {machine : Machine} {evaluator : EvaluatorId} {frame : FrameId} {base : Store}

def IsCore (value : Term) : Prop :=
  value.isCallable = true → ∃ operation, value = .primitive (.core operation)

theorem quiet_applyCore (machine : Machine) (operation : CorePrimitive) (operands : List Term)
    (frames : Array Frame) (ends : Prop) :
    Quiet frames ends (fun _ => True) (machine.applyCore operation operands) := by
  have hrefuses : ∀ operands : List Term,
      Quiet frames ends (fun _ => True) (Run.ofExcept (operation.apply operands)) := by
    intro operands
    cases happly : operation.apply operands with
    | ok value => exact quiet_pure trivial
    | error fault =>
        have hfault := CorePrimitive.refuses_apply operation operands fault happly
        exact quiet_fail (Fault.isOrdinary_of_isRefusal hfault)
  intro store hstore
  exact hrefuses _ store hstore

theorem quiet_apply (machine : Machine) (evaluator : EvaluatorId) {callee : Term}
    (hcore : IsCore callee) (arguments : List Term) (bound depth : Nat) (frames : Array Frame) :
    Quiet frames (0 < bound) (fun _ => True)
      (machine.run bound (.apply evaluator callee arguments depth)) := by
  cases bound with
  | zero => exact quiet_unfinished (Nat.lt_irrefl 0)
  | succ bound =>
      by_cases hcallable : callee.isCallable = true
      · obtain ⟨operation, rfl⟩ := hcore hcallable
        intro store hstore
        let event := Event.hostApplied (.core operation) arguments
        let inside := (store.log event).setCallbackDepth evaluator depth
        obtain ⟨hlogs, hends⟩ :=
          quiet_applyCore machine operation arguments frames (0 < bound + 1) inside hstore
        have hstep : machine.run (bound + 1)
            (.apply evaluator (.primitive (.core operation)) arguments depth) store =
              Run.atCallbackDepth evaluator depth (machine.applyCore operation arguments)
                (store.log event) := rfl
        rw [hstep]
        refine ⟨?_, hends⟩
        exact {
          toResumes := (Store.Resumes.log store event).trans (.atCallbackDepth hlogs.toResumes)
          frames := hlogs.frames
          closures := hlogs.closures
          notes := hlogs.notes }
      · have hrefuse : machine.run (bound + 1) (.apply evaluator callee arguments depth) =
            refuse callee := by
          cases callee <;> first | rfl | exact absurd rfl hcallable
        rw [hrefuse]
        exact fun store _ => ⟨.refl store, rfl⟩

/-- A node within the limit does its own step, and one beyond it fails. -/
theorem quiet_node {term : Term} (hnode : term.isNode = true) {self : Task → Run Term}
    {depth : Nat} {frames : Array Frame} {ends : Prop} {good : Term → Prop}
    (hstep : Quiet frames ends good (stepNode self evaluator frame depth term)) :
    Quiet frames ends good (machine.step self (.eval evaluator term frame depth)) := by
  rw [step, if_pos hnode]
  split
  · exact quiet_fail rfl
  · exact hstep

theorem quiet_variable (hcore : ∀ name value, base.lookup? frame name = some value → IsCore value)
    (name : String) (bound depth : Nat) :
    Quiet base.frames (0 < bound) IsCore
      (machine.run bound (.eval evaluator (.variable name) frame depth)) := by
  cases bound with
  | zero => exact quiet_unfinished (Nat.lt_irrefl 0)
  | succ bound =>
      refine quiet_node rfl fun store hstore => ?_
      rw [stepNode, Run.lookup, Run.get_bind_apply, Store.lookup?_of_frames_eq hstore]
      cases hfound : base.lookup? frame name with
      | some value => exact ⟨.refl store, hcore name value hfound⟩
      | none => exact ⟨.refl store, rfl⟩

theorem quiet_call (hcore : ∀ name value, base.lookup? frame name = some value → IsCore value)
    (name : String) {operands : List Term}
    (hoperands : ∀ operand ∈ operands, ∀ bound depth, Quiet base.frames (sizeOf operand < bound)
      (fun _ => True) (machine.run bound (.eval evaluator operand frame depth)))
    (bound depth : Nat) :
    Quiet base.frames (sizeOf (Term.call name operands) < bound) (fun _ => True)
      (machine.run bound (.eval evaluator (.call name operands) frame depth)) := by
  cases bound with
  | zero => exact quiet_unfinished (Nat.not_lt_zero _)
  | succ bound =>
      have hsize : sizeOf (Term.call name operands) < bound + 1 → 0 < bound := by
        intro hless
        rw [Term.call, Term.application.sizeOf_spec] at hless
        omega
      have hpart : ∀ operand ∈ operands, sizeOf (Term.call name operands) < bound + 1 →
          sizeOf operand < bound := by
        intro operand hoperand hless
        have hsmaller := List.sizeOf_lt_of_mem hoperand
        rw [Term.call, Term.application.sizeOf_spec] at hless
        omega
      refine quiet_node rfl ?_
      refine ((quiet_variable hcore name bound (depth + 1)).mono hsize fun _ h => h).bind ?_
      intro callee hcallee
      refine (quiet_mapM fun operand hoperand => ?_).bind fun arguments _ => ?_
      · exact (hoperands operand hoperand bound (depth + 1)).mono (hpart operand hoperand)
          fun _ h => h
      · exact (quiet_apply machine evaluator hcallee arguments bound (depth + 1) _).mono hsize
          fun _ h => h

end Machine

namespace Condition

open Machine Run

variable {machine : Machine} {evaluator : EvaluatorId} {frame : FrameId} {base : Store}

theorem quiet_literal {term : Term} (hnode : term.isNode = false) (bound depth : Nat)
    (frames : Array Frame) :
    Quiet frames (sizeOf term < bound) (fun _ => True)
      (machine.run bound (.eval evaluator term frame depth)) := by
  cases bound with
  | zero => exact quiet_unfinished (Nat.not_lt_zero _)
  | succ bound =>
      rw [Machine.run, step_data hnode]
      exact quiet_pure trivial

theorem InFragment.quiet {tree : Term} (htree : InFragment tree)
    (hcore : ∀ name value, base.lookup? frame name = some value → IsCore value)
    (bound depth : Nat) :
    Quiet base.frames (sizeOf tree < bound) (fun _ => True)
      (machine.run bound (.eval evaluator tree frame depth)) := by
  induction htree generalizing bound depth with
  | int | float | text | bool | null => exact quiet_literal rfl bound depth _
  | named hname =>
      exact (quiet_variable hcore _ bound depth).mono (Nat.zero_lt_of_lt ·) fun _ _ => trivial
  | joined keyword _ _ ih => exact quiet_call hcore _ ih bound depth
  | negated _ ih => exact quiet_call hcore _ (List.forall_mem_singleton.mpr ih) bound depth
  | compared comparison _ _ hleft hright =>
      exact quiet_call hcore _
        (List.forall_mem_cons.mpr ⟨hleft, List.forall_mem_singleton.mpr hright⟩) bound depth
  | called _ _ _ ih => exact quiet_call hcore _ ih bound depth

/-- What is read from a text is in the fragment.  Where only core operations can be called, its
evaluation ends without a change to any frame and without a fault of the program itself, whatever
the limit. -/
theorem evaluate_ofTerm {text : String} {tree : Term} (htree : ofTerm (.str text) = .ok tree) :
    InFragment tree ∧
      ∀ (machine : Machine) (evaluator : EvaluatorId) (frame : FrameId) (store : Store),
        (∀ name value, store.lookup? frame name = some value → value.isCallable = true →
          ∃ operation, value = .primitive (.core operation)) →
        ∀ bound,
          (machine.evaluate bound evaluator tree frame store).2.frames = store.frames ∧
          (∀ fault, (machine.evaluate bound evaluator tree frame store).1 = .error (.fault fault) →
            fault.name? ≠ some "ArityMismatchError" ∧
              fault.name? ≠ some "UnknownExpressionKindError") ∧
          (sizeOf tree < bound →
            (machine.evaluate bound evaluator tree frame store).1 ≠ .error .unfinished) := by
  have hfragment : InFragment tree := inFragment_read htree
  refine ⟨hfragment, fun machine evaluator frame store hcore bound => ?_⟩
  obtain ⟨hlogs, hends⟩ : store.Logs (machine.evaluate bound evaluator tree frame store).2 ∧
      Ordinary (sizeOf tree < bound) (fun _ => True)
        (machine.evaluate bound evaluator tree frame store).1 :=
    hfragment.quiet hcore bound (store.callbackDepth evaluator) store rfl
  refine ⟨hlogs.frames, fun fault hfault => ?_, fun hbound hunfinished => ?_⟩
  · rw [hfault] at hends
    exact Fault.name?_of_isOrdinary hends
  · rw [hunfinished] at hends
    exact hends hbound

/-- A root frame with a tier beside the core operations. -/
def tierStore : Store :=
  (Registry.core.bootstrap [("tier", .str "gold")] {}).2

theorem isCore_tierStore (name : String) (value : Term)
    (hvalue : tierStore.lookup? 0 name = some value) : IsCore value := by
  obtain ⟨other, hother, hbound⟩ := Store.exists_of_lookup? hvalue
  have hroot : tierStore.chain 0 = [0] := rfl
  rw [hroot, List.mem_singleton] at hother
  subst hother
  have hbindings : tierStore.bindings 0 =
      Registry.core.entries ++ [("tier", .str "gold")] := rfl
  have hmem := Bindings.mem_of_value? hbound
  rw [hbindings, List.mem_append, List.mem_singleton, Registry.core, List.mem_map] at hmem
  intro hcallable
  rcases hmem with ⟨operation, -, hentry⟩ | hentry
  · exact ⟨operation, (congrArg Prod.snd hentry).symm⟩
  · rw [(Prod.mk.inj hentry).2] at hcallable
    cases hcallable

/-- Nothing is bound to `known`, which the evaluation meets after it has compared the tier. -/
theorem evaluate_ofTerm_unbound :
    let machine : Machine := { host := fun _ _ => .refuse, limit _ := none }
    let tree : Term := .call "and" [.call "=" [.variable "tier", .str "gold"],
      .call "not" [.call "known" [.variable "region"]]]
    ofTerm (.str "tier == 'gold' AND NOT known(region)") = .ok tree ∧ InFragment tree ∧
      (machine.evaluate 5 0 tree 0 tierStore).1 = .error (.fault (.unbound "known")) ∧
      (machine.evaluate 5 0 tree 0 tierStore).2.frames = tierStore.frames ∧
      (machine.evaluate (sizeOf tree + 1) 0 tree 0 tierStore).1 ≠ .error .unfinished := by
  intro machine tree
  have hread : ofTerm (.str "tier == 'gold' AND NOT known(region)") = .ok tree := rfl
  obtain ⟨hfragment, hquiet⟩ := evaluate_ofTerm hread
  have hends := hquiet machine 0 0 tierStore isCore_tierStore
  exact ⟨hread, hfragment, rfl, (hends 5).1, (hends (sizeOf tree + 1)).2.2 (Nat.lt_succ_self _)⟩

end Condition
end Rulebook
