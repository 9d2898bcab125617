import Rulebook.Proofs.Evaluation.Agreement
import Rulebook.Proofs.Scope.Lookup

/-!
# Calls of core operations

Looking up names and applying core operations leaves nothing behind but events.  A run that does no
more than that ends in the same way wherever the frames are the same, and so a call of a core
operation yields a value as soon as its operands do.
-/

namespace Rulebook

/-! ## Runs that add events only -/

namespace Store

/-- The second store comes out of the first one by a run that adds events only. -/
structure Logs (before after : Store) : Prop extends Resumes before after where
  frames : after.frames = before.frames
  closures : after.closures = before.closures
  notes : after.notes = before.notes

namespace Logs

variable {before middle after : Store}

theorem refl (store : Store) : Logs store store where
  toResumes := .refl store
  frames := rfl
  closures := rfl
  notes := rfl

theorem trans (hfirst : Logs before middle) (hlast : Logs middle after) : Logs before after where
  toResumes := hfirst.toResumes.trans hlast.toResumes
  frames := hlast.frames.trans hfirst.frames
  closures := hlast.closures.trans hfirst.closures
  notes := hlast.notes.trans hfirst.notes

end Logs

end Store

namespace Run

/-- Wherever the frames are these, a run ends with a value of some kind and adds events only. -/
def Yields (frames : Array Frame) (run : Run α) (good : α → Prop) : Prop :=
  ∀ store : Store, store.frames = frames →
    ∃ value after, run store = (.ok value, after) ∧ good value ∧ store.Logs after

variable {frames : Array Frame}

theorem Yields.mono {run : Run α} {good better : α → Prop} (hrun : Yields frames run good)
    (himp : ∀ value, good value → better value) : Yields frames run better := by
  intro store hstore
  obtain ⟨value, after, hvalue, hgood, hlogs⟩ := hrun store hstore
  exact ⟨value, after, hvalue, himp value hgood, hlogs⟩

theorem yields_pure {value : α} {good : α → Prop} (hvalue : good value) :
    Yields frames (pure value) good :=
  fun store _ => ⟨value, store, rfl, hvalue, .refl store⟩

theorem Yields.mapM_cons {f : α → Run β} {item : α} {items : List α} {good : β → Prop}
    {goods : List β → Prop} (hitem : Yields frames (f item) good)
    (hitems : Yields frames (items.mapM f) goods) :
    Yields frames ((item :: items).mapM f)
      fun values => ∃ value rest, values = value :: rest ∧ good value ∧ goods rest := by
  intro store hstore
  obtain ⟨value, middle, hvalue, hgood, hlogs⟩ := hitem store hstore
  obtain ⟨rest, after, hrest, hgoods, hlogs'⟩ := hitems middle (hlogs.frames.trans hstore)
  refine ⟨value :: rest, after, ?_, ⟨value, rest, rfl, hgood, hgoods⟩, hlogs.trans hlogs'⟩
  rw [List.mapM_cons, Run.bind_of_ok hvalue, Run.bind_of_ok hrest]
  rfl

theorem yields_mapM_map {f : β → Run α} {g : α → β} {items : List α}
    (hitems : ∀ item ∈ items, Yields frames (f (g item)) (· = item)) :
    Yields frames ((items.map g).mapM f) (· = items) := by
  induction items with
  | nil => exact yields_pure rfl
  | cons item rest ih =>
      rw [List.forall_mem_cons] at hitems
      apply (hitems.1.mapM_cons (ih hitems.2)).mono
      rintro _ ⟨value, values, rfl, rfl, rfl⟩
      rfl

end Run

namespace Machine

variable {machine : Machine} {evaluator : EvaluatorId} {frame : FrameId}

theorem step_data {term : Term} (hnode : term.isNode = false) (self : Task → Run Term)
    (depth : Nat) : machine.step self (.eval evaluator term frame depth) = pure term := by
  rw [step, if_neg (by rw [hnode]; exact Bool.false_ne_true)]

theorem step_node (hlimit : machine.limit evaluator = none) {term : Term}
    (hnode : term.isNode = true) (self : Task → Run Term) (depth : Nat) :
    machine.step self (.eval evaluator term frame depth) =
      stepNode self evaluator frame depth term := by
  have hexceeds : machine.exceeds evaluator depth = none := by
    rw [exceeds, hlimit]
    rfl
  rw [step, if_pos hnode, hexceeds]

theorem run_variable (hlimit : machine.limit evaluator = none) {store : Store}
    {name : String} {value : Term} (hfound : store.lookup? frame name = some value)
    (bound depth : Nat) :
    machine.run (bound + 1) (.eval evaluator (.variable name) frame depth) store =
      (.ok value, store) := by
  rw [run, step_node hlimit rfl, stepNode, Run.lookup, Run.get_bind_apply, hfound]
  rfl

theorem applyCore_eq {operation : CorePrimitive}
    (hblind : operation ∉ [CorePrimitive.hasProperty, .getProperty]) (operands : List Term) :
    machine.applyCore operation operands =
      (do let _ ← get; Run.ofExcept (operation.apply operands)) := by
  cases operation <;> first | rfl | exact absurd hblind (by decide)

/-- A core operation that does not ask for properties sees its operands only. -/
theorem run_apply_core (machine : Machine) (evaluator : EvaluatorId) {operation : CorePrimitive}
    {arguments : List Term} {value : Term}
    (hblind : operation ∉ [CorePrimitive.hasProperty, .getProperty])
    (hvalue : operation.apply arguments = .ok value) (bound depth : Nat) (store : Store) :
    ∃ after, machine.run (bound + 1)
        (.apply evaluator (.primitive (.core operation)) arguments depth) store =
          (.ok value, after) ∧ store.Logs after := by
  let event := Event.hostApplied (.core operation) arguments
  let inside := (store.log event).setCallbackDepth evaluator depth
  have happly : machine.applyCore operation arguments inside = (.ok value, inside) := by
    rw [applyCore_eq hblind, hvalue]
    rfl
  refine ⟨inside.setCallbackDepth evaluator (store.callbackDepth evaluator), ?_, ?_⟩
  · have hstep : machine.run (bound + 1)
        (.apply evaluator (.primitive (.core operation)) arguments depth) store =
          Run.atCallbackDepth evaluator depth (machine.applyCore operation arguments)
            (store.log event) := rfl
    rw [hstep, Run.atCallbackDepth, happly]
    rfl
  · exact {
      toResumes := (Store.Resumes.log store event).trans (.atCallbackDepth (.refl inside))
      frames := rfl
      closures := rfl
      notes := rfl }

theorem yields_call (operation : CorePrimitive) {base : Store} {operands : List Term}
    {depth bound : Nat} {good : List Term → Prop} {better : Term → Prop}
    (hlimit : machine.limit evaluator = none)
    (hblind : operation ∉ [CorePrimitive.hasProperty, .getProperty])
    (hfound : base.lookup? frame operation.name = some (.primitive (.core operation)))
    (hbound : 0 < bound)
    (hoperands : Run.Yields base.frames (operands.mapM fun operand =>
      machine.run bound (.eval evaluator operand frame (depth + 1))) good)
    (happly : ∀ values, good values → ∃ value, operation.apply values = .ok value ∧ better value) :
    Run.Yields base.frames
      (machine.run (bound + 1) (.eval evaluator (.call operation.name operands) frame depth))
      better := by
  intro store hstore
  obtain ⟨smaller, rfl⟩ := Nat.exists_eq_add_one_of_ne_zero hbound.ne'
  have hfound' : store.lookup? frame operation.name = some (.primitive (.core operation)) :=
    (Store.lookup?_of_frames_eq hstore frame operation.name).trans hfound
  have hoperator := run_variable hlimit hfound' smaller (depth + 1)
  obtain ⟨values, middle, hvalues, hgood, hlogs⟩ := hoperands store hstore
  obtain ⟨value, hvalue, hbetter⟩ := happly values hgood
  obtain ⟨after, happlied, hlogs'⟩ :=
    run_apply_core machine evaluator hblind hvalue smaller (depth + 1) middle
  refine ⟨value, after, ?_, hbetter, hlogs.trans hlogs'⟩
  rw [Term.call, run, step_node hlimit rfl, stepNode, Run.bind_of_ok hoperator, Run.bind_of_ok hvalues,
    happlied]

end Machine
end Rulebook
