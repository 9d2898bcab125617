import Rulebook.Proofs.Evaluation.Moves

/-!
# Runs that settle

A run that depends on a bound settles when it is finished from some bound on, and is the same from
there on.  Runs that are put together out of such runs settle at a bound that is large enough for
all of their parts.  What is said about the later parts may use that the earlier ones were finished.
-/

namespace Rulebook
namespace Run

def Ends (run : Run α) : Prop :=
  ∀ store, (run store).1 ≠ .error .unfinished

namespace Ends

theorem pure (value : α) : Ends (pure value) := by
  rintro store ⟨⟩

theorem fail (fault : Fault) : Ends (Run.fail fault : Run α) := by
  rintro store ⟨⟩

theorem get : Ends (get : Run Store) := by
  rintro store ⟨⟩

theorem ofExcept (outcome : Except Fault α) : Ends (Run.ofExcept outcome) := by
  cases outcome with
  | error fault => exact fail fault
  | ok value => exact pure value

theorem bind {run : Run α} {next : α → Run β} (hrun : Ends run)
    (hnext : ∀ value, Ends (next value)) :
    Ends (run >>= next) := by
  intro store
  have hstore := hrun store
  rcases houtcome : run store with ⟨halt | value, after⟩
  · rw [houtcome] at hstore
    rw [bind_of_halt houtcome]
    rintro ⟨⟩
    exact hstore rfl
  · rw [bind_of_ok houtcome]
    exact hnext value after

theorem map {run : Run α} (hrun : Ends run) (f : α → β) : Ends (f <$> run) := by
  rw [map_eq_pure_bind]
  exact hrun.bind fun value => pure (f value)

theorem mapM {f : α → Run β} (hitems : ∀ item, Ends (f item)) (items : List α) :
    Ends (items.mapM f) := by
  induction items with
  | nil => exact pure []
  | cons item rest ih =>
      rw [List.mapM_cons]
      exact (hitems item).bind fun value => ih.bind fun values => pure (value :: values)

theorem lookup (frame : FrameId) (name : String) : Ends (Run.lookup frame name) := by
  apply get.bind
  intro store
  split
  · exact pure _
  · exact fail _

theorem find (frame : FrameId) (name : String) : Ends (Run.find frame name) := by
  apply get.bind
  intro store
  split
  · exact pure _
  · exact fail _

theorem define (frame : FrameId) (name : String) (value : Term) :
    Ends (Run.define frame name value) := by
  rintro store ⟨⟩

theorem assign (frame : FrameId) (name : String) (value : Term) :
    Ends (Run.assign frame name value) := by
  apply get.bind
  intro store
  split
  · rintro store ⟨⟩
  · exact fail _

theorem extend (parent : Option FrameId) (names : List String) (values : List Term) :
    Ends (Run.extend parent names values) := by
  unfold Run.extend
  split_ifs
  · exact fail _
  · rintro store ⟨⟩

theorem nameOf (term : Term) : Ends (Run.nameOf term) := by
  unfold Run.nameOf
  split
  · exact pure _
  · exact get.bind fun store => fail _

theorem newName (term : Term) : Ends (Run.newName term) := by
  unfold Run.newName
  split
  · exact pure _
  · exact fail _

theorem itemsOf (term : Term) : Ends (Run.itemsOf term) := by
  unfold Run.itemsOf
  split
  · exact pure _
  · exact fail _

theorem isBound (frame : FrameId) (term : Term) : Ends (Run.isBound frame term) := by
  unfold Run.isBound
  split
  · exact get.bind fun store => pure _
  · split_ifs
    · exact pure _
    · exact fail _

theorem extendBy (frame : FrameId) (names values : Term) :
    Ends (Run.extendBy frame names values) := by
  apply (itemsOf names).bind
  intro names
  apply (itemsOf values).bind
  intro values
  split_ifs
  · exact fail _
  · exact (mapM newName names).bind fun names => (extend _ _ _).map _

theorem callScope (frame : FrameId) (method : ScopeMethod) (arguments : List Term) :
    Ends (Run.callScope frame method arguments) := by
  unfold Run.callScope
  split
  · exact get.bind fun store => pure _
  · exact extendBy frame _ _
  · exact (nameOf _).bind fun name => (find frame name).map _
  · exact (nameOf _).bind fun name => lookup frame name
  · exact (newName _).bind fun name => define frame name _
  · exact (nameOf _).bind fun name => assign frame name _
  · exact isBound frame _
  · exact get.bind fun store => pure _
  · exact fail _

theorem enter (params : List String) (home : FrameId) (arguments : List Term) :
    Ends (Run.enter params home arguments) := by
  unfold Run.enter
  split_ifs
  · exact fail _
  · apply (extend _ _ _).bind
    rintro frame store ⟨⟩

theorem bindArguments (params : List String) (home : FrameId) (arguments : List Term) :
    Ends (Run.bindArguments params home arguments) := by
  unfold Run.bindArguments
  split
  · exact (itemsOf _).bind fun items => (enter params home items).map _
  · exact fail _

theorem close (params : List String) (body : Term) (home : FrameId) (owner : Option EvaluatorId) :
    Ends (Machine.close params body home owner) := by
  rintro store ⟨⟩

theorem refuse (value : Term) : Ends (Machine.refuse value) :=
  get.bind fun _ => fail _

theorem applyCore (machine : Machine) (operation : CorePrimitive) (operands : List Term) :
    Ends (machine.applyCore operation operands) :=
  get.bind fun _ => ofExcept _

end Ends

/-! ## Settling -/

/-- From some bound on, a run is finished and stays the same. -/
def Settles (family : Nat → Run α) (store : Store) : Prop :=
  ∃ bound result, result.1 ≠ .error .unfinished ∧
    ∀ larger, bound ≤ larger → family larger store = result

theorem Ends.settles {run : Run α} (hrun : Ends run) (store : Store) :
    Settles (fun _ => run) store :=
  ⟨0, run store, hrun store, fun _ _ => rfl⟩

namespace Settles

variable {store : Store}

theorem bind {family : Nat → Run α} {next : Nat → α → Run β} (hrun : Settles family store)
    (hnext : ∀ bound value after, family bound store = (.ok value, after) →
      Settles (fun larger => next larger value) after) :
    Settles (fun bound => family bound >>= next bound) store := by
  obtain ⟨bound, ⟨outcome, after⟩, hends, hsame⟩ := hrun
  cases outcome with
  | error halt =>
      refine ⟨bound, (.error halt, after), ?_, fun larger hle => bind_of_halt (hsame larger hle) _⟩
      rintro ⟨⟩
      exact hends rfl
  | ok value =>
      obtain ⟨further, result, hends', hsame'⟩ :=
        hnext bound value after (hsame bound (Nat.le_refl bound))
      refine ⟨max bound further, result, hends', fun larger hle => ?_⟩
      have hfirst := hsame larger (Nat.le_trans (Nat.le_max_left bound further) hle)
      have hrest := hsame' larger (Nat.le_trans (Nat.le_max_right bound further) hle)
      exact (bind_of_ok hfirst _).trans hrest

theorem observe {family : Nat → Run α} (hrun : Settles family store) :
    Settles (fun bound => Run.observe (family bound)) store := by
  obtain ⟨bound, ⟨outcome, after⟩, hends, hsame⟩ := hrun
  have hobserve : ∀ larger, bound ≤ larger → Run.observe (family larger) store =
      Run.observe (fun _ => (outcome, after)) store := by
    intro larger hle
    simp only [Run.observe, hsame larger hle]
  refine ⟨bound, _, ?_, hobserve⟩
  rcases outcome with (fault | _) | value
  · rintro ⟨⟩
  · exact absurd rfl hends
  · rintro ⟨⟩

theorem atCallbackDepth {family : Nat → Run α} {evaluator : EvaluatorId} {depth : Nat}
    (hrun : Settles family (store.setCallbackDepth evaluator depth)) :
    Settles (fun bound => Run.atCallbackDepth evaluator depth (family bound)) store := by
  obtain ⟨bound, ⟨outcome, after⟩, hends, hsame⟩ := hrun
  refine ⟨bound, (outcome, after.setCallbackDepth evaluator (store.callbackDepth evaluator)),
    hends, fun larger hle => ?_⟩
  simp only [Run.atCallbackDepth, hsame larger hle]

/-- Runs over a list settle when each does so wherever those before it may have led. -/
theorem mapM (inv : Store → Prop) {f : Nat → α → Run β} {items : List α} (hstore : inv store)
    (hsettles : ∀ item ∈ items, ∀ after, inv after → Settles (fun bound => f bound item) after)
    (hkeeps : ∀ item ∈ items, ∀ bound value after next, inv after →
      f bound item after = (.ok value, next) → inv next) :
    Settles (fun bound => items.mapM (f bound)) store := by
  induction items generalizing store with
  | nil => exact (Ends.pure []).settles store
  | cons item rest ih =>
      simp only [List.mapM_cons]
      apply (hsettles item List.mem_cons_self store hstore).bind
      intro bound value after hvalue
      have hafter := hkeeps item List.mem_cons_self bound value store after hstore hvalue
      have hrest := ih hafter
        (fun other hother => hsettles other (List.mem_cons_of_mem item hother))
        fun other hother => hkeeps other (List.mem_cons_of_mem item hother)
      exact hrest.bind fun _ values later _ => (Ends.pure (value :: values)).settles later

theorem foldlM (inv : Store → Prop) {f : Nat → β → α → Run β} {items : List α} {start : β}
    (hstore : inv store)
    (hsettles : ∀ item ∈ items, ∀ value after, inv after →
      Settles (fun bound => f bound value item) after)
    (hkeeps : ∀ item ∈ items, ∀ bound value result after next, inv after →
      f bound value item after = (.ok result, next) → inv next) :
    Settles (fun bound => items.foldlM (f bound) start) store := by
  induction items generalizing store start with
  | nil => exact (Ends.pure start).settles store
  | cons item rest ih =>
      simp only [List.foldlM_cons]
      apply (hsettles item List.mem_cons_self start store hstore).bind
      intro bound value after hvalue
      have hafter := hkeeps item List.mem_cons_self bound start value store after hstore hvalue
      exact ih hafter (fun other hother => hsettles other (List.mem_cons_of_mem item hother))
        fun other hother => hkeeps other (List.mem_cons_of_mem item hother)

/-- A run that settles with one bound less does so. -/
theorem of_succ {family : Nat → Run α} (hrun : Settles (fun bound => family (bound + 1)) store) :
    Settles family store := by
  obtain ⟨bound, result, hends, hsame⟩ := hrun
  refine ⟨bound + 1, result, hends, fun larger hle => ?_⟩
  cases larger with
  | zero => exact absurd hle (Nat.not_succ_le_zero bound)
  | succ larger => exact hsame larger (Nat.le_of_succ_le_succ hle)

end Settles

end Run
end Rulebook
