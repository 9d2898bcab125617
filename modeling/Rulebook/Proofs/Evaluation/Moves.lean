import Mathlib
import Rulebook.Evaluation.Evaluator

/-!
# What runs do to the frames

A run moves a store along a relation when the store that it leaves is related to the one that it
was given, whether it ended with a value, with a fault or unfinished.  For a relation that is
transitive and looks only at the frames, runs that are put together out of such runs are such runs
again, host programs included.
-/

namespace Rulebook

namespace Run

/-- Wherever a run starts, the store that it leaves is related to the one before. -/
def Moves (R : Store → Store → Prop) (run : Run α) : Prop :=
  ∀ store, R store (run store).2

theorem bind_of_halt {run : Run α} {halt : Halt} {store after : Store}
    (hrun : run store = (.error halt, after)) (next : α → Run β) :
    (run >>= next) store = (.error halt, after) := by
  change ExceptT.bindCont next (run store).1 (run store).2 = _
  rw [hrun]
  rfl

theorem bind_of_ok {run : Run α} {value : α} {store after : Store}
    (hrun : run store = (.ok value, after)) (next : α → Run β) :
    (run >>= next) store = next value after := by
  change ExceptT.bindCont next (run store).1 (run store).2 = _
  rw [hrun]
  rfl

theorem bind_eq_ok {run : Run α} {next : α → Run β} {value : β} {store after : Store}
    (hrun : (run >>= next) store = (.ok value, after)) :
    ∃ first middle, run store = (.ok first, middle) ∧ next first middle = (.ok value, after) := by
  rcases houtcome : run store with ⟨halt | first, middle⟩
  · rw [bind_of_halt houtcome] at hrun
    cases hrun
  · rw [bind_of_ok houtcome] at hrun
    exact ⟨first, middle, rfl, hrun⟩

theorem map_eq_ok {run : Run α} {f : α → β} {value : β} {store after : Store}
    (hrun : (f <$> run) store = (.ok value, after)) :
    ∃ first, run store = (.ok first, after) ∧ f first = value := by
  rw [map_eq_pure_bind] at hrun
  obtain ⟨first, middle, hfirst, hvalue⟩ := bind_eq_ok hrun
  cases hvalue
  exact ⟨first, hfirst, rfl⟩

theorem map_of_ok {run : Run α} {value : α} {store after : Store}
    (hrun : run store = (.ok value, after)) (f : α → β) :
    (f <$> run) store = (.ok (f value), after) := by
  rw [map_eq_pure_bind, bind_of_ok hrun]
  rfl

theorem map_eq_halt {run : Run α} {f : α → β} {halt : Halt} {store after : Store}
    (hrun : (f <$> run) store = (.error halt, after)) : run store = (.error halt, after) := by
  rcases houtcome : run store with ⟨_ | value, last⟩
  · rw [map_eq_pure_bind, bind_of_halt houtcome] at hrun
    cases hrun
    rfl
  · rw [map_of_ok houtcome] at hrun
    cases hrun

theorem get_bind_apply (next : Store → Run α) (store : Store) :
    ((get : Run Store) >>= next) store = next store store := rfl

theorem Moves.observe {R : Store → Store → Prop} {run : Run α} (hrun : Moves R run) :
    Moves R (Run.observe run) := by
  intro store
  have hstore := hrun store
  rw [Run.observe]
  rcases houtcome : run store with ⟨(fault | _) | value, after⟩ <;> rwa [houtcome] at hstore

end Run

/-- A relation between stores along which steps can be chained. -/
structure Store.RunOrder (R : Store → Store → Prop) : Prop where
  refl : ∀ store, R store store
  trans : ∀ {before middle after}, R before middle → R middle after → R before after

namespace Store.RunOrder

open Run

variable {R : Store → Store → Prop}

theorem pure (hR : RunOrder R) (value : α) : Moves R (pure value : Run α) :=
  hR.refl

theorem bind (hR : RunOrder R) {run : Run α} {next : α → Run β} (hrun : Moves R run)
    (hnext : ∀ value, Moves R (next value)) : Moves R (run >>= next) := by
  intro store
  have hfirst := hrun store
  rcases houtcome : run store with ⟨halt | value, after⟩
  · rw [bind_of_halt houtcome]
    rwa [houtcome] at hfirst
  · rw [bind_of_ok houtcome]
    rw [houtcome] at hfirst
    exact hR.trans hfirst (hnext value after)

theorem map (hR : RunOrder R) {run : Run α} (f : α → β) (hrun : Moves R run) :
    Moves R (f <$> run) := by
  have hbind := hR.bind hrun fun value => hR.pure (f value)
  rwa [← map_eq_pure_bind] at hbind

theorem mapM (hR : RunOrder R) {f : α → Run β} {items : List α}
    (hitems : ∀ item ∈ items, Moves R (f item)) : Moves R (items.mapM f) := by
  induction items with
  | nil => exact hR.pure []
  | cons item rest ih =>
      rw [List.mapM_cons]
      apply hR.bind (hitems item List.mem_cons_self)
      intro value
      have hrest := ih fun other hother => hitems other (List.mem_cons_of_mem item hother)
      exact hR.bind hrest fun values => hR.pure (value :: values)

theorem foldlM (hR : RunOrder R) {f : β → α → Run β} {items : List α}
    (hitems : ∀ item ∈ items, ∀ value, Moves R (f value item)) (start : β) :
    Moves R (items.foldlM f start) := by
  induction items generalizing start with
  | nil => exact hR.pure start
  | cons item rest ih =>
      rw [List.foldlM_cons]
      apply hR.bind (hitems item List.mem_cons_self start)
      intro value
      exact ih (fun other hother => hitems other (List.mem_cons_of_mem item hother)) value

end Store.RunOrder

/-- A relation between stores along which steps can be chained, and that holds between any two
stores with the same frames. -/
structure Store.FrameOrder (R : Store → Store → Prop) : Prop where
  trans : ∀ {before middle after}, R before middle → R middle after → R before after
  of_frames_eq : ∀ {before after : Store}, after.frames = before.frames → R before after

namespace Store.FrameOrder

open Run

variable {R : Store → Store → Prop}

theorem toRunOrder (hR : FrameOrder R) : RunOrder R where
  refl _ := hR.of_frames_eq rfl
  trans := hR.trans

/-! ## Building blocks -/

theorem of_run (hR : FrameOrder R) {run : Run α}
    (hrun : ∀ store, (run store).2.frames = store.frames) : Moves R run :=
  fun store => hR.of_frames_eq (hrun store)

theorem pure (hR : FrameOrder R) (value : α) : Moves R (pure value : Run α) :=
  hR.of_run fun _ => rfl

theorem halt (hR : FrameOrder R) (halt : Halt) : Moves R (throw halt : Run α) :=
  hR.of_run fun _ => rfl

theorem fail (hR : FrameOrder R) (fault : Fault) : Moves R (Run.fail fault : Run α) :=
  hR.of_run fun _ => rfl

theorem get (hR : FrameOrder R) : Moves R (get : Run Store) :=
  hR.of_run fun _ => rfl

theorem log (hR : FrameOrder R) (event : Event) : Moves R (Run.log event) :=
  hR.of_run fun _ => rfl

theorem ofExcept (hR : FrameOrder R) (outcome : Except Fault α) :
    Moves R (Run.ofExcept outcome) := by
  cases outcome with
  | ok value => exact hR.pure value
  | error fault => exact hR.fail fault

theorem bind (hR : FrameOrder R) {run : Run α} {next : α → Run β} (hrun : Moves R run)
    (hnext : ∀ value, Moves R (next value)) : Moves R (run >>= next) :=
  hR.toRunOrder.bind hrun hnext

theorem map (hR : FrameOrder R) {run : Run α} (f : α → β) (hrun : Moves R run) :
    Moves R (f <$> run) :=
  hR.toRunOrder.map f hrun

theorem mapM (hR : FrameOrder R) {f : α → Run β} {items : List α}
    (hitems : ∀ item ∈ items, Moves R (f item)) : Moves R (items.mapM f) :=
  hR.toRunOrder.mapM hitems

theorem foldlM (hR : FrameOrder R) {f : β → α → Run β} {items : List α}
    (hitems : ∀ item ∈ items, ∀ value, Moves R (f value item)) (start : β) :
    Moves R (items.foldlM f start) :=
  hR.toRunOrder.foldlM hitems start

theorem atCallbackDepth (hR : FrameOrder R) (evaluator : EvaluatorId) (depth : Nat)
    {run : Run α} (hrun : Moves R run) : Moves R (Run.atCallbackDepth evaluator depth run) := by
  intro store
  have hbefore : R store (store.setCallbackDepth evaluator depth) := hR.of_frames_eq rfl
  have hinside := hrun (store.setCallbackDepth evaluator depth)
  exact hR.trans hbefore (hR.trans hinside (hR.of_frames_eq rfl))

theorem ofProgram (hR : FrameOrder R) {call : Term → List Term → Run Term}
    (hcall : ∀ callee arguments, Moves R (call callee arguments)) (program : HostProgram) :
    Moves R (Run.ofProgram call program) := by
  induction program with
  | done outcome => exact hR.ofExcept outcome
  | call callee arguments next ih =>
      exact hR.bind (hcall callee arguments).observe ih
  | note tag next ih =>
      exact hR.bind (hR.of_run fun _ => rfl) fun _ => ih

/-! ## Methods that leave the frames alone -/

theorem lookup (hR : FrameOrder R) (frame : FrameId) (name : String) :
    Moves R (Run.lookup frame name) := by
  apply hR.bind hR.get
  intro store
  split
  · exact hR.pure _
  · exact hR.fail _

theorem find (hR : FrameOrder R) (frame : FrameId) (name : String) :
    Moves R (Run.find frame name) := by
  apply hR.bind hR.get
  intro store
  split
  · exact hR.pure _
  · exact hR.fail _

theorem nameOf (hR : FrameOrder R) (term : Term) : Moves R (Run.nameOf term) := by
  unfold Run.nameOf
  split
  · exact hR.pure _
  · exact hR.bind hR.get fun _ => hR.fail _

theorem newName (hR : FrameOrder R) (term : Term) : Moves R (Run.newName term) := by
  unfold Run.newName
  split
  · exact hR.pure _
  · exact hR.fail _

theorem itemsOf (hR : FrameOrder R) (term : Term) : Moves R (Run.itemsOf term) := by
  unfold Run.itemsOf
  split
  · exact hR.pure _
  · exact hR.fail _

theorem isBound (hR : FrameOrder R) (frame : FrameId) (term : Term) :
    Moves R (Run.isBound frame term) := by
  unfold Run.isBound
  split
  · exact hR.bind hR.get fun _ => hR.pure _
  · split_ifs
    · exact hR.pure _
    · exact hR.fail _

theorem refuse (hR : FrameOrder R) (value : Term) : Moves R (Machine.refuse value) :=
  hR.bind hR.get fun _ => hR.fail _

theorem close (hR : FrameOrder R) (params : List String) (body : Term) (home : FrameId)
    (owner : Option EvaluatorId) : Moves R (Machine.close params body home owner) :=
  hR.of_run fun _ => rfl

theorem applyCore (hR : FrameOrder R) (machine : Machine) (operation : CorePrimitive)
    (operands : List Term) : Moves R (machine.applyCore operation operands) :=
  hR.bind hR.get fun _ => hR.ofExcept _

end Store.FrameOrder

/-! ## Methods that rebind names or add frames -/

/-- A relation between stores that holds when a bound name is rebound and when a frame is added. -/
structure Store.GrowthOrder (R : Store → Store → Prop) : Prop extends FrameOrder R where
  assign? : ∀ {store after : Store} {id : FrameId} {name : String} {value : Term},
    store.assign? id name value = some after → R store after
  push : ∀ (store : Store) (frame : Frame), R store (store.push frame).1

namespace Store.GrowthOrder

open Run

variable {R : Store → Store → Prop}

theorem assign (hR : GrowthOrder R) (frame : FrameId) (name : String) (value : Term) :
    Moves R (Run.assign frame name value) := by
  intro store
  rw [Run.assign, get_bind_apply]
  cases hassign : store.assign? frame name value with
  | none => exact hR.of_frames_eq rfl
  | some after => exact hR.assign? hassign

theorem extend (hR : GrowthOrder R) (parent : Option FrameId) (names : List String)
    (values : List Term) : Moves R (Run.extend parent names values) := by
  unfold Run.extend
  split_ifs
  · exact hR.fail _
  · intro store
    exact hR.push store _

theorem enter (hR : GrowthOrder R) (params : List String) (home : FrameId)
    (arguments : List Term) : Moves R (Run.enter params home arguments) := by
  unfold Run.enter
  split_ifs
  · exact hR.fail _
  · apply hR.bind (hR.extend (some home) params arguments)
    intro frame
    exact hR.bind (hR.log _) fun _ => hR.pure frame

theorem extendBy (hR : GrowthOrder R) (frame : FrameId) (names values : Term) :
    Moves R (Run.extendBy frame names values) := by
  apply hR.bind (hR.itemsOf names)
  intro names
  apply hR.bind (hR.itemsOf values)
  intro values
  split_ifs
  · exact hR.fail _
  · apply hR.bind (hR.mapM fun name _ => hR.newName name)
    intro names
    exact hR.map _ (hR.extend _ _ _)

theorem bindArguments (hR : GrowthOrder R) (params : List String) (home : FrameId)
    (arguments : List Term) : Moves R (Run.bindArguments params home arguments) := by
  unfold Run.bindArguments
  split
  · exact hR.bind (hR.itemsOf _) fun items => hR.map _ (hR.enter params home items)
  · exact hR.fail _

/-- Of the methods of an environment, only the one that binds names does more. -/
theorem callScope (hR : GrowthOrder R) (frame : FrameId) {method : ScopeMethod}
    (hmethod : method ≠ .define) (arguments : List Term) :
    Moves R (Run.callScope frame method arguments) := by
  unfold Run.callScope
  split
  · exact hR.bind hR.get fun _ => hR.pure _
  · exact hR.extendBy frame _ _
  · exact hR.bind (hR.nameOf _) fun name => hR.map _ (hR.find frame name)
  · exact hR.bind (hR.nameOf _) fun name => hR.lookup frame name
  · exact absurd rfl hmethod
  · exact hR.bind (hR.nameOf _) fun name => hR.assign frame name _
  · exact hR.isBound frame _
  · exact hR.bind hR.get fun _ => hR.pure _
  · exact hR.fail _

end Store.GrowthOrder

/-! ## Primitives -/

/-- Whether a primitive can bind names in frames that are there: the method of an environment that
binds names, and that of an evaluator that evaluates what it is given in an environment. -/
def Primitive.bindsNames : Primitive → Bool
  | .method (.scope .define _) | .method (.evaluator .evaluate _) => true
  | _ => false

namespace Store.GrowthOrder

open Run

variable {R : Store → Store → Prop} {self : Task → Run Term}

theorem callEvaluator_apply (hR : GrowthOrder R) (evaluator : EvaluatorId)
    (happly : ∀ evaluator callee arguments depth,
      Moves R (self (.apply evaluator callee arguments depth)))
    (arguments : List Term) :
    Moves R (Machine.callEvaluator self evaluator .apply arguments) := by
  unfold Machine.callEvaluator
  split
  · contradiction
  · split_ifs
    · apply hR.bind hR.get
      intro store
      exact hR.bind (hR.itemsOf _) fun items => happly _ _ items _
    · exact hR.refuse _
  · exact hR.fail _

theorem applyPrimitive (hR : GrowthOrder R) (machine : Machine)
    (hcall : ∀ callee arguments, Moves R (self (.call callee arguments)))
    (happly : ∀ evaluator callee arguments depth,
      Moves R (self (.apply evaluator callee arguments depth)))
    {callable : Primitive} (hcallable : callable.bindsNames = false) (arguments : List Term) :
    Moves R (machine.applyPrimitive self callable arguments) := by
  cases callable with
  | core operation => exact hR.applyCore machine operation arguments
  | host name => exact hR.ofProgram hcall _
  | method method =>
      cases method with
      | scope method frame =>
          apply hR.callScope frame
          rintro rfl
          exact absurd hcallable (by simp [Primitive.bindsNames])
      | evaluator method evaluator =>
          cases method with
          | evaluate => exact absurd hcallable (by simp [Primitive.bindsNames])
          | apply => exact hR.callEvaluator_apply evaluator happly arguments
      | bind closure params home => exact hR.bindArguments params home arguments

end Store.GrowthOrder

end Rulebook
