import Rulebook.Proofs.Evaluation.Calls

/-!
# What nodes yield

A node whose parts add events only does so itself, unless it binds names or creates a closure.
Among the calls these are the ones of all primitives that do: of core operations, also where they
ask for properties, and of host functions that call nothing back.
-/

namespace Rulebook

namespace Run

variable {frames : Array Frame} {good : α → Prop} {better : β → Prop}

theorem Yields.bind {run : Run α} {next : α → Run β} (hrun : Yields frames run good)
    (hnext : ∀ value, good value → Yields frames (next value) better) :
    Yields frames (run >>= next) better := by
  intro store hstore
  obtain ⟨value, middle, hvalue, hgood, hlogs⟩ := hrun store hstore
  obtain ⟨last, after, hlast, hbetter, hlogs'⟩ :=
    hnext value hgood middle (hlogs.frames.trans hstore)
  refine ⟨last, after, ?_, hbetter, hlogs.trans hlogs'⟩
  rw [bind_of_ok hvalue, hlast]

theorem yields_get {next : Store → Run β}
    (hnext : ∀ store, store.frames = frames → Yields frames (next store) better) :
    Yields frames (get >>= next) better :=
  fun store hstore => hnext store hstore store hstore

theorem yields_ofExcept {outcome : Except Fault α} {value : α} (houtcome : outcome = .ok value)
    (hvalue : good value) : Yields frames (ofExcept outcome) good := by
  rw [houtcome]
  exact yields_pure hvalue

theorem yields_log (event : Event) : Yields frames (log event) fun _ => True :=
  fun store _ => ⟨(), store.log event, rfl, trivial,
    { toResumes := .log store event, frames := rfl, closures := rfl, notes := rfl }⟩

theorem Yields.atCallbackDepth {run : Run α} (hrun : Yields frames run good)
    (evaluator : EvaluatorId) (depth : Nat) :
    Yields frames (atCallbackDepth evaluator depth run) good := by
  intro store hstore
  obtain ⟨value, after, hvalue, hgood, hlogs⟩ :=
    hrun (store.setCallbackDepth evaluator depth) hstore
  refine ⟨value, after.setCallbackDepth evaluator (store.callbackDepth evaluator), ?_, hgood, {
    toResumes := .atCallbackDepth hlogs.toResumes
    frames := hlogs.frames
    closures := hlogs.closures
    notes := hlogs.notes }⟩
  rw [Run.atCallbackDepth, hvalue]

theorem yields_mapM_nil (f : α → Run β) : Yields frames ([].mapM f) (· = []) :=
  yields_pure rfl

/-- A run that yields one value, followed by runs that yield the rest. -/
theorem yields_mapM_cons {f : α → Run β} {item : α} {items : List α} {value : β}
    {values : List β} (hitem : Yields frames (f item) (· = value))
    (hitems : Yields frames (items.mapM f) (· = values)) :
    Yields frames ((item :: items).mapM f) (· = value :: values) := by
  apply (hitem.mapM_cons hitems).mono
  rintro _ ⟨_, _, rfl, rfl, rfl⟩
  rfl

end Run

namespace Machine

variable {machine : Machine} {evaluator : EvaluatorId} {frame : FrameId} {frames : Array Frame}
  {base : Store} {good : Term → Prop}

theorem yields_data {term : Term} (hnode : term.isNode = false) (bound depth : Nat) :
    Run.Yields frames (machine.run (bound + 1) (.eval evaluator term frame depth)) (· = term) := by
  rw [run, step_data hnode]
  exact Run.yields_pure rfl

theorem yields_variable (hlimit : machine.limit evaluator = none) {name : String} {value : Term}
    (hfound : base.lookup? frame name = some value) (bound depth : Nat) :
    Run.Yields base.frames (machine.run (bound + 1) (.eval evaluator (.variable name) frame depth))
      (· = value) := by
  intro store hstore
  have hfound' := (Store.lookup?_of_frames_eq hstore frame name).trans hfound
  exact ⟨value, store, run_variable hlimit hfound' bound depth, rfl, .refl store⟩

theorem yields_conditional (hlimit : machine.limit evaluator = none)
    {predicate consequent alternative : Term} {truth : Bool} {bound depth : Nat}
    (hpredicate : Run.Yields frames
      (machine.run bound (.eval evaluator predicate frame (depth + 1)))
      fun value => value.isTruthy = truth)
    (hconsequent : truth = true → Run.Yields frames
      (machine.run bound (.eval evaluator consequent frame (depth + 1))) good)
    (halternative : truth = false → Run.Yields frames
      (machine.run bound (.eval evaluator alternative frame (depth + 1))) good) :
    Run.Yields frames (machine.run (bound + 1)
      (.eval evaluator (.conditional predicate consequent alternative) frame depth)) good := by
  rw [run, step_node hlimit rfl, stepNode]
  apply hpredicate.bind
  intro value hvalue
  cases truth with
  | true =>
      rw [if_pos hvalue]
      exact hconsequent rfl
  | false =>
      rw [if_neg (by rw [hvalue]; exact Bool.false_ne_true)]
      exact halternative rfl

theorem run_lambda (hlimit : machine.limit evaluator = none) (params : List String) (body : Term)
    (store : Store) (bound depth : Nat) :
    ∃ id created,
      machine.run (bound + 1) (.eval evaluator (.lambda params body) frame depth) store =
          (.ok (.closure id params body frame (some evaluator)), created) ∧
        created.frames = store.frames := by
  rw [run, step_node hlimit rfl]
  exact ⟨_, _, rfl, rfl⟩

/-- What is left of an application whose operator and operands are evaluated. -/
theorem run_application (hlimit : machine.limit evaluator = none) {operator callee : Term}
    {operands arguments : List Term} {store middle last : Store} {bound depth : Nat}
    (hoperator : machine.run bound (.eval evaluator operator frame (depth + 1)) store =
      (.ok callee, middle))
    (hoperands : (operands.mapM fun operand =>
      machine.run bound (.eval evaluator operand frame (depth + 1))) middle =
        (.ok arguments, last)) :
    machine.run (bound + 1) (.eval evaluator (.application operator operands) frame depth) store =
      machine.run bound (.apply evaluator callee arguments (depth + 1)) last := by
  rw [run, step_node hlimit rfl, stepNode, Run.bind_of_ok hoperator, Run.bind_of_ok hoperands]

/-- What is left of applying a closure that has been entered. -/
theorem run_apply_closure {params : List String} {home : FrameId} {arguments : List Term}
    {store entered : Store} (henter : Run.enter params home arguments store = (.ok frame, entered))
    (id : Nat) (body : Term) (owner : Option EvaluatorId) (bound depth : Nat) :
    machine.run (bound + 1)
        (.apply evaluator (.closure id params body home owner) arguments depth) store =
      machine.run bound (.eval evaluator body frame depth) entered := by
  rw [run, step, Run.bind_of_ok henter]

/-- A call of a primitive yields what the primitive makes of what its operands yield. -/
theorem yields_primitive_call {name : String} {callable : Primitive} {operands : List Term}
    {values : List Term} {bound depth : Nat} (hlimit : machine.limit evaluator = none)
    (hfound : base.lookup? frame name = some (.primitive callable))
    (hoperands : Run.Yields base.frames (operands.mapM fun operand =>
      machine.run (bound + 1) (.eval evaluator operand frame (depth + 1))) (· = values))
    (happly : Run.Yields base.frames
      (machine.applyPrimitive (machine.run bound) callable values) good) :
    Run.Yields base.frames
      (machine.run (bound + 2) (.eval evaluator (.call name operands) frame depth)) good := by
  rw [Term.call, run, step_node hlimit rfl, stepNode]
  apply (yields_variable hlimit hfound bound (depth + 1)).bind
  rintro _ rfl
  apply hoperands.bind
  rintro _ rfl
  rw [run, step]
  exact (Run.yields_log _).bind fun _ _ => happly.atCallbackDepth evaluator (depth + 1)

theorem yields_applyCore {operation : CorePrimitive}
    (hblind : operation ∉ [CorePrimitive.hasProperty, .getProperty]) {operands : List Term}
    {value : Term} (hvalue : operation.apply operands = .ok value) (self : Task → Run Term) :
    Run.Yields frames (machine.applyPrimitive self (.core operation) operands) (· = value) := by
  rw [applyPrimitive, applyCore_eq hblind]
  exact Run.yields_get fun _ _ => Run.yields_ofExcept hvalue rfl

theorem yields_hasProperty {term key : Term} {found : Option Term}
    (hfound : ∀ store, (machine.opened store term).property? key = .ok found)
    (self : Task → Run Term) :
    Run.Yields frames (machine.applyPrimitive self (.core .hasProperty) [term, key])
      (· = .bool found.isSome) := by
  apply Run.yields_get
  intro store _
  have hvalue : CorePrimitive.hasProperty.apply [machine.opened store term, key] =
      .ok (.bool found.isSome) := by
    rw [CorePrimitive.apply, hfound]
    rfl
  exact Run.yields_ofExcept hvalue rfl

theorem yields_applyHost {name : String} {compute : List Term → Except Fault Term}
    (hhost : machine.host name = HostProgram.pure compute) {operands : List Term} {value : Term}
    (hvalue : compute operands = .ok value) (self : Task → Run Term) :
    Run.Yields frames (machine.applyPrimitive self (.host name) operands) (· = value) := by
  have hprogram : machine.host name operands = .done (.ok value) := by
    rw [hhost, HostProgram.pure, hvalue]
  rw [applyPrimitive, hprogram, Run.ofProgram]
  exact Run.yields_pure rfl

end Machine
end Rulebook
