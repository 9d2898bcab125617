import Rulebook.Proofs.Evaluation.Limits
import Rulebook.Proofs.Evaluation.Restoring

/-!
# Calling back is applying

A host function that does no more than to call its first argument makes no difference: applying it
to a closure and arguments is applying the closure to the arguments.  The closure goes on at the
depth of the host application, which it finds in the store, and without the host function it goes
on at the same depth, which it is given.

Inside of the closure the store differs in the callback depth of its evaluator, and in that the host
application has been noted.  Nobody sees the former, since the evaluator sets it anew before host
code runs.
-/

namespace Rulebook

/-- Two stores differ at most in a note of the application of a host function. -/
structure Store.Noted (name : String) (first second : Store) : Prop where
  frames : first.frames = second.frames
  closures : first.closures = second.closures
  notes : first.notes = second.notes
  depth : ∀ evaluator, first.callbackDepth evaluator = second.callbackDepth evaluator
  trace : ∃ past events, first.trace.toList = past ++ events ∧
    (second.trace.toList = past ++ events ∨ ∃ arguments,
      second.trace.toList = past ++ .hostApplied (.host name) arguments :: events)

theorem Store.Noted.refl (name : String) (store : Store) : Store.Noted name store store where
  frames := rfl
  closures := rfl
  notes := rfl
  depth _ := rfl
  trace := ⟨store.trace.toList, [], by simp, .inl (by simp)⟩

/-- Two runs end in the same way, but for a note of the application of a host function. -/
structure Run.EndAlike (name : String) (result other : Except Halt Term × Store) : Prop where
  outcome : result.1 = other.1
  noted : Store.Noted name result.2 other.2

theorem Run.EndAlike.refl (name : String) (result : Except Halt Term × Store) :
    Run.EndAlike name result result :=
  ⟨rfl, .refl name result.2⟩

/-- As long as only one evaluator runs, its own callback depth may differ.  It does not any more
where host code runs. -/
def Nesting.apart (evaluator : EvaluatorId) (past past' : List Event) : Nesting Bool where
  depths hosted depths depths' := ∀ other, hosted = true ∨ other ≠ evaluator →
    depths.getD other 0 = depths'.getD other 0
  inside _ _ _ := true
  hosted hosted := hosted = true
  runs hosted other _ := hosted = true ∨ other = evaluator
  past := past
  past' := past'

theorem Nesting.lawful_apart (evaluator : EvaluatorId) (past past' : List Event) :
    (Nesting.apart evaluator past past').Lawful where
  deeper hruns := hruns
  hosts _ := rfl
  depth hhosted hdepths other := hdepths other (.inl hhosted)
  resumes hhosted _ _ := .inl hhosted
  enter {hosted caller _ _ _} hruns hdepths other _ := by
    rw [getD_setDepth, getD_setDepth]
    split_ifs with hother
    · rfl
    · apply hdepths
      rcases hruns with hhosted | rfl
      · exact .inl hhosted
      · exact .inr hother
  leave {hosted caller _ _ _ _ _} _ hdepths hinner other hallowed := by
    rw [getD_setDepth, getD_setDepth]
    split_ifs with hother
    · subst hother
      exact hdepths other hallowed
    · exact hinner other (.inl rfl)

namespace Run

theorem observe_bind_ofExcept (run : Run α) : Run.observe run >>= Run.ofExcept = run := by
  funext store
  rcases houtcome : run store with ⟨(fault | _) | value, after⟩
  · have hobserved : Run.observe run store = (.ok (.error fault), after) := by
      rw [Run.observe, houtcome]
    rw [bind_of_ok hobserved]
    rfl
  · have hobserved : Run.observe run store = (.error .unfinished, after) := by
      rw [Run.observe, houtcome]
    rw [bind_of_halt hobserved]
  · have hobserved : Run.observe run store = (.ok (.ok value), after) := by
      rw [Run.observe, houtcome]
    rw [bind_of_ok hobserved]
    rfl

end Run

namespace Machine

open Run

variable {machine : Machine} {name : String}

/-- A host function that calls its first argument with the others, and does nothing else. -/
def Invokes (machine : Machine) (name : String) : Prop :=
  ∀ callee arguments, machine.host name (callee :: arguments) = .call callee arguments .done

/-! ## Applying a closure through a host function -/

/-- The application of the host function is that of the closure, with the depth in the store. -/
theorem run_apply_invoke (hinvokes : machine.Invokes name) (bound : Nat) (evaluator : EvaluatorId)
    (id : Nat) (params : List String) (body : Term) (home : FrameId) (arguments : List Term)
    (depth : Nat) (store : Store) :
    let procedure := Term.closure id params body home (some evaluator)
    let begun := (store.log (.hostApplied (.host name) (procedure :: arguments))).setCallbackDepth
      evaluator depth
    machine.run (bound + 2) (.apply evaluator (.primitive (.host name)) (procedure :: arguments)
        depth) store =
      ((machine.run bound (.apply evaluator procedure arguments depth) begun).1,
        (machine.run bound (.apply evaluator procedure arguments depth) begun).2.setCallbackDepth
          evaluator (store.callbackDepth evaluator)) := by
  intro procedure begun
  have hprogram : machine.applyPrimitive (machine.run (bound + 1)) (.host name)
      (procedure :: arguments) = machine.run (bound + 1) (.call procedure arguments) := by
    rw [applyPrimitive, hinvokes, Run.ofProgram]
    exact observe_bind_ofExcept _
  have hdepth : begun.callbackDepth evaluator = depth := by
    rw [Store.callbackDepth_setCallbackDepth, if_pos rfl]
  have hcall : machine.run (bound + 1) (.call procedure arguments) begun =
      machine.run bound (.apply evaluator procedure arguments (begun.callbackDepth evaluator))
        begun := rfl
  rw [hdepth] at hcall
  have hstep : machine.run (bound + 2) (.apply evaluator (.primitive (.host name))
      (procedure :: arguments) depth) store =
        Run.atCallbackDepth evaluator depth (machine.applyPrimitive (machine.run (bound + 1))
          (.host name) (procedure :: arguments))
          (store.log (.hostApplied (.host name) (procedure :: arguments))) := rfl
  rw [hstep, hprogram, Run.atCallbackDepth]
  change (machine.run (bound + 1) (.call procedure arguments) begun |>.1,
    (machine.run (bound + 1) (.call procedure arguments) begun).2.setCallbackDepth evaluator
      (store.callbackDepth evaluator)) = _
  rw [hcall]

theorem endAlike_apply (hinvokes : machine.Invokes name) (bound : Nat) (evaluator : EvaluatorId)
    (id : Nat) (params : List String) (body : Term) (home : FrameId) (arguments : List Term)
    (depth : Nat) (store : Store) :
    let procedure := Term.closure id params body home (some evaluator)
    EndAlike name (machine.run bound (.apply evaluator procedure arguments depth) store)
      (machine.run (bound + 2) (.apply evaluator (.primitive (.host name))
        (procedure :: arguments) depth) store) := by
  intro procedure
  let event := Event.hostApplied (.host name) (procedure :: arguments)
  let begun := (store.log event).setCallbackDepth evaluator depth
  let N := Nesting.apart evaluator store.trace.toList (store.trace.toList ++ [event])
  have law : N.Lawful := Nesting.lawful_apart evaluator _ _
  have hstart : N.related false store begun := {
    frames := rfl
    closures := rfl
    notes := rfl
    depths := by
      intro other hother
      have hset := getD_setDepth store.callbackDepths evaluator depth other
      rw [if_neg (hother.resolve_left Bool.false_ne_true)] at hset
      exact hset.symm
    trace := ⟨[], by simp [N, Nesting.apart], by
      simp [N, Nesting.apart, begun, Store.setCallbackDepth, Store.log]⟩ }
  -- Inside of the host call the store differs only by the note and by how deep the evaluator is.
  have hback := run_apply_invoke hinvokes bound evaluator id params body home arguments depth store
  have hfits : N.Fits false (.apply evaluator procedure arguments depth) := .inr rfl
  obtain ⟨houtcome, hrelated, _⟩ := law.same_run machine bound hfits hstart
  constructor
  · rw [hback]
    exact houtcome.eq
  · have hrestored : ∀ other,
        (machine.run bound (.apply evaluator procedure arguments depth) store).2.callbackDepth
          other = (machine.run (bound + 2) (.apply evaluator (.primitive (.host name))
            (procedure :: arguments) depth) store).2.callbackDepth other := by
      intro other
      rw [callbackDepth_run, callbackDepth_run]
    rw [hback] at hrestored ⊢
    obtain ⟨events, hfirst, hsecond⟩ := hrelated.trace
    refine ⟨hrelated.frames, hrelated.closures, hrelated.notes, hrestored, ?_⟩
    exact ⟨store.trace.toList, events, hfirst,
      .inr ⟨procedure :: arguments, hsecond.trans (List.append_assoc _ _ _)⟩⟩

/-! ## Evaluating such an application -/

def operandsOf (machine : Machine) (bound : Nat) (evaluator : EvaluatorId) (frame : FrameId)
    (depth : Nat) (operands : List Term) : Run (List Term) :=
  operands.mapM fun operand => machine.run bound (.eval evaluator operand frame (depth + 1))

/-- What an evaluator does at a depth that may be too deep for it. -/
def unlessTooDeep (machine : Machine) (evaluator : EvaluatorId) (depth : Nat) (run : Run α) : Run α :=
  match machine.exceeds evaluator depth with
  | some limit => Run.fail (.tooDeep limit)
  | none => run

theorem run_quoted (bound : Nat) (evaluator : EvaluatorId) (value : Term) (frame : FrameId)
    (depth : Nat) : machine.run (bound + 1) (.eval evaluator (.quoted value) frame depth) =
      machine.unlessTooDeep evaluator depth (pure value) := rfl

theorem unlessTooDeep_bind (evaluator : EvaluatorId) (depth : Nat) (run : Run α) (next : α → Run β) :
    machine.unlessTooDeep evaluator depth run >>= next =
      machine.unlessTooDeep evaluator depth (run >>= next) := by
  unfold unlessTooDeep
  split
  · rfl
  · rfl

/-- A value is applied to operands if the node and its parts are not too deep. -/
theorem run_application_quoted (bound : Nat) (evaluator : EvaluatorId) (value : Term)
    (operands : List Term) (frame : FrameId) (depth : Nat) :
    machine.run (bound + 2) (.eval evaluator (.application (.quoted value) operands) frame depth) =
      machine.unlessTooDeep evaluator depth (machine.unlessTooDeep evaluator (depth + 1) do
        let arguments ← machine.operandsOf (bound + 1) evaluator frame depth operands
        machine.run (bound + 1) (.apply evaluator value arguments (depth + 1))) := by
  have hnode : machine.run (bound + 2) (.eval evaluator (.application (.quoted value) operands)
      frame depth) = machine.unlessTooDeep evaluator depth (do
        let callee ← machine.run (bound + 1) (.eval evaluator (.quoted value) frame (depth + 1))
        let arguments ← machine.operandsOf (bound + 1) evaluator frame depth operands
        machine.run (bound + 1) (.apply evaluator callee arguments (depth + 1))) := rfl
  rw [hnode, run_quoted, unlessTooDeep_bind]
  rfl

theorem unlessTooDeep_idem (evaluator : EvaluatorId) (depth : Nat) (run : Run α) :
    machine.unlessTooDeep evaluator depth (machine.unlessTooDeep evaluator depth run) =
      machine.unlessTooDeep evaluator depth run := by
  unfold unlessTooDeep
  split
  · rfl
  · rfl

theorem run_application_quoted_cons (bound : Nat) (evaluator : EvaluatorId) (value first : Term)
    (operands : List Term) (frame : FrameId) (depth : Nat) :
    machine.run (bound + 2)
        (.eval evaluator (.application (.quoted value) (.quoted first :: operands)) frame depth) =
      machine.unlessTooDeep evaluator depth (machine.unlessTooDeep evaluator (depth + 1) do
        let arguments ← machine.operandsOf (bound + 1) evaluator frame depth operands
        machine.run (bound + 1) (.apply evaluator value (first :: arguments) (depth + 1))) := by
  have hoperands : machine.operandsOf (bound + 1) evaluator frame depth (.quoted first :: operands) =
      machine.unlessTooDeep evaluator (depth + 1) ((first :: ·) <$>
        machine.operandsOf (bound + 1) evaluator frame depth operands) := by
    rw [operandsOf, List.mapM_cons, run_quoted, unlessTooDeep_bind, map_eq_pure_bind]
    rfl
  rw [run_application_quoted, hoperands, unlessTooDeep_bind, unlessTooDeep_idem]
  simp only [map_eq_pure_bind, bind_assoc, pure_bind]

theorem below_operandsOf {bound larger : Nat} (hle : bound ≤ larger) (evaluator : EvaluatorId)
    (frame : FrameId) (depth : Nat) (operands : List Term) :
    Below (machine.operandsOf bound evaluator frame depth operands)
      (machine.operandsOf larger evaluator frame depth operands) := by
  rw [below_iff]
  exact Follows.mapM (fun operand => below_iff.mp (machine.below_run hle _)) operands

/-- Wherever the first run is finished, the second one ends in a related way. -/
def EndsAs (related : Except Halt α × Store → Except Halt α × Store → Prop) (run other : Run α) :
    Prop :=
  ∀ store, (run store).1 ≠ .error .unfinished → related (run store) (other store)

section EndsAs

variable {related : Except Halt Term × Store → Except Halt Term × Store → Prop}

theorem EndsAs.bind (hrefl : ∀ result, related result result) {first further : Run α}
    {next more : α → Run Term} (hfirst : Below first further)
    (hnext : ∀ value, EndsAs related (next value) (more value)) :
    EndsAs related (first >>= next) (further >>= more) := by
  intro store hends
  rcases houtcome : first store with ⟨halt | value, after⟩
  · rw [bind_of_halt houtcome] at hends
    have hsame : further store = (.error halt, after) := by
      rw [← (hfirst store).resolve_left _, houtcome]
      rw [houtcome]
      rintro ⟨⟩
      exact hends rfl
    rw [bind_of_halt houtcome, bind_of_halt hsame]
    exact hrefl _
  · rw [bind_of_ok houtcome] at hends
    have hsame : further store = (.ok value, after) := by
      rw [← (hfirst store).resolve_left (by simp [houtcome]), houtcome]
    rw [bind_of_ok houtcome, bind_of_ok hsame]
    exact hnext value after hends

theorem EndsAs.of_depth (hrefl : ∀ result, related result result) {run other : Run Term}
    (hruns : EndsAs related run other) (evaluator : EvaluatorId) (depth : Nat) :
    EndsAs related (machine.unlessTooDeep evaluator depth run)
      (machine.unlessTooDeep evaluator depth other) := by
  unfold unlessTooDeep
  cases machine.exceeds evaluator depth with
  | some limit => exact fun store _ => hrefl _
  | none => exact hruns

end EndsAs

/-- Each of two tasks comes to an end if the other one does, and in the same way. -/
def EndTogether (machine : Machine) (name : String) (task other : Task) (store : Store) : Prop :=
  (∀ bound, (machine.run bound task store).1 ≠ .error .unfinished →
    ∃ larger, EndAlike name (machine.run bound task store) (machine.run larger other store)) ∧
  (∀ bound, (machine.run bound other store).1 ≠ .error .unfinished →
    ∃ larger, EndAlike name (machine.run larger task store) (machine.run bound other store))

/-- Applying a closure of the evaluator through a host function that only invokes it comes to the
same as applying it, at any depth, under any limit and from any store. -/
theorem eval_invoke (machine : Machine) (name : String) (hinvokes : machine.Invokes name)
    (evaluator : EvaluatorId) (id : Nat) (params : List String) (body : Term) (home : FrameId)
    (operands : List Term) (frame : FrameId) (depth : Nat) (store : Store) :
    let procedure := Term.quoted (.closure id params body home (some evaluator))
    let function := Term.quoted (.primitive (.host name))
    machine.EndTogether name
      (.eval evaluator (.application procedure operands) frame depth)
      (.eval evaluator (.application function (procedure :: operands)) frame depth) store := by
  intro procedure function
  constructor
  · intro bound hends
    have hmore := (machine.below_run (Nat.le_add_right bound 2) _ store).resolve_left hends
    refine ⟨bound + 4, ?_⟩
    rw [hmore] at hends ⊢
    have happlied : EndsAs (EndAlike name)
        (machine.run (bound + 2) (.eval evaluator (.application procedure operands) frame depth))
        (machine.run (bound + 4)
          (.eval evaluator (.application function (procedure :: operands)) frame depth)) := by
      rw [run_application_quoted_cons, run_application_quoted]
      have hrefl := EndAlike.refl name
      refine .of_depth hrefl (.of_depth hrefl ?_ _ _) _ _
      refine .bind hrefl (below_operandsOf (Nat.le_add_right _ 2) _ _ _ _) ?_
      intro arguments after _
      exact endAlike_apply hinvokes (bound + 1) evaluator id params body home arguments _ after
    exact happlied store hends
  · intro bound hends
    have hmore := (machine.below_run (Nat.le_add_right bound 2) _ store).resolve_left hends
    refine ⟨bound + 2, ?_⟩
    rw [hmore] at hends ⊢
    let related : Except Halt Term × Store → Except Halt Term × Store → Prop :=
      fun result other => EndAlike name other result
    have hrefl : ∀ result, related result result := EndAlike.refl name
    have happlied : EndsAs related
        (machine.run (bound + 2)
          (.eval evaluator (.application function (procedure :: operands)) frame depth))
        (machine.run (bound + 2)
          (.eval evaluator (.application procedure operands) frame depth)) := by
      rw [run_application_quoted_cons, run_application_quoted]
      refine .of_depth hrefl (.of_depth hrefl ?_ _ _) _ _
      refine .bind hrefl (below_operandsOf (Nat.le_refl _) _ _ _ _) ?_
      intro arguments after happlied
      -- The larger bound that the function needs was enough, and so it is for the closure.
      have hback := (machine.below_run (Nat.le_add_right (bound + 1) 2) _ after).resolve_left
        happlied
      have halike := endAlike_apply hinvokes (bound + 1) evaluator id params body home arguments
        (depth + 1) after
      dsimp only at halike
      rw [← hback] at halike
      exact halike
    exact happlied store hends

/-- A closure that returns the first of its two arguments, two nodes deep. -/
def firstClosure : Term :=
  .closure 7 ["x", "y"] (.sequence [.variable "x"]) 0 (some 0)

/-- Applies it to a number of texts. -/
def applyFirst (operands : List Term) : Term :=
  .application (.quoted firstClosure) operands

def invokeFirst (operands : List Term) : Term :=
  .application (.quoted (.primitive (.host "invoke"))) (.quoted firstClosure :: operands)

/-- A limit of two nodes is enough for both applications, and one of one node is enough for neither.
With an argument missing, both complain of that. -/
theorem eval_invoke_first :
    let machine := callbackMachine.withLimit 0 (some 2)
    let tight := callbackMachine.withLimit 0 (some 1)
    let operands := [Term.str "a", .str "b"]
    machine.Invokes "invoke" ∧ tight.Invokes "invoke" ∧
    machine.EndTogether "invoke" (.eval 0 (applyFirst operands) 0 0)
      (.eval 0 (invokeFirst operands) 0 0) limitStore ∧
    tight.EndTogether "invoke" (.eval 0 (applyFirst operands) 0 0)
      (.eval 0 (invokeFirst operands) 0 0) limitStore ∧
    machine.EndTogether "invoke" (.eval 0 (applyFirst operands.tail) 0 0)
      (.eval 0 (invokeFirst operands.tail) 0 0) limitStore ∧
    (machine.run 9 (.eval 0 (applyFirst operands) 0 0) limitStore).1 = .ok (.str "a") ∧
    (tight.run 9 (.eval 0 (applyFirst operands) 0 0) limitStore).1 =
      .error (.fault (.tooDeep 1)) ∧
    (machine.run 9 (.eval 0 (applyFirst operands.tail) 0 0) limitStore).1 =
      .error (.fault (.arity 2 1 (some ["x", "y"]))) := by
  intro machine tight operands
  have hinvokes : ∀ limit, (callbackMachine.withLimit 0 limit).Invokes "invoke" :=
    fun limit callee arguments => rfl
  refine ⟨hinvokes _, hinvokes _, ?_, ?_, ?_, rfl, rfl, rfl⟩
  · exact eval_invoke machine "invoke" (hinvokes _) 0 7 _ _ 0 operands 0 0 limitStore
  · exact eval_invoke tight "invoke" (hinvokes _) 0 7 _ _ 0 operands 0 0 limitStore
  · exact eval_invoke machine "invoke" (hinvokes _) 0 7 _ _ 0 operands.tail 0 0 limitStore

end Machine
end Rulebook
