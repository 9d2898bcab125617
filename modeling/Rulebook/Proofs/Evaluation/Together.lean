import Rulebook.Proofs.Evaluation.Agreement
import Rulebook.Proofs.Evaluation.Bounds

/-!
# Evaluations that end together

What is evaluated in pieces may need another bound than what is evaluated at once.  Two evaluations
are compared by all of their bounds: each of them ends within some bound if the other one does, with
the same value or the same fault, and the stores that they leave differ at most in how often `list`
was applied.
-/

namespace Rulebook

/-- The second trace is the first one with further applications of `list` in it. -/
inductive Event.Padded : List Event → List Event → Prop
  | nil : Padded [] []
  | both (event : Event) {first second : List Event} :
      Padded first second → Padded (event :: first) (event :: second)
  | listed (items : List Term) {first second : List Event} :
      Padded first second → Padded first (.hostApplied (.core .list) items :: second)

namespace Event.Padded

theorem refl (trace : List Event) : Padded trace trace := by
  induction trace with
  | nil => exact .nil
  | cons event rest ih => exact ih.both event

theorem append {first second more further : List Event} (hfront : Padded first second)
    (hback : Padded more further) : Padded (first ++ more) (second ++ further) := by
  induction hfront with
  | nil => exact hback
  | both event _ ih => exact ih.both event
  | listed items _ ih => exact ih.listed items

end Event.Padded

/-- Two stores differ at most in how often `list` was applied. -/
structure Store.Gathered (first second : Store) : Prop where
  frames : first.frames = second.frames
  closures : first.closures = second.closures
  notes : first.notes = second.notes
  depth : ∀ evaluator, first.callbackDepth evaluator = second.callbackDepth evaluator
  trace : Event.Padded first.trace.toList second.trace.toList

theorem Store.Gathered.refl (store : Store) : Store.Gathered store store where
  frames := rfl
  closures := rfl
  notes := rfl
  depth _ := rfl
  trace := .refl store.trace.toList

/-- A further application of `list` makes no difference. -/
theorem Store.Gathered.listed {first second : Store} (hstores : first.Gathered second)
    (evaluator : EvaluatorId) (arguments : List Term) (depth : Nat) :
    first.Gathered (((second.log (.hostApplied (.core .list) arguments)).setCallbackDepth evaluator
      depth).setCallbackDepth evaluator (second.callbackDepth evaluator)) where
  frames := hstores.frames
  closures := hstores.closures
  notes := hstores.notes
  depth other := by
    rw [hstores.depth, callbackDepth_setCallbackDepth, callbackDepth_setCallbackDepth]
    split_ifs with hother
    · rw [hother]
    · rfl
  trace := by
    have hlisted : Event.Padded [] [.hostApplied (.core .list) arguments] :=
      .listed arguments .nil
    simpa [Store.log, Store.setCallbackDepth] using hstores.trace.append hlisted

namespace Run

open Store

theorem ok_ne_unfinished (value : α) : (.ok value : Except Halt α) ≠ .error .unfinished := by
  rintro ⟨⟩

/-! ## Runs with growing bounds -/

/-- A larger bound only goes on with what was unfinished. -/
def Widens (runs : Nat → Run α) : Prop :=
  ∀ bound larger, bound ≤ larger → Below (runs bound) (runs larger)

theorem widens_const (run : Run α) : Widens fun _ => run :=
  fun _ _ _ _ => .inr rfl

theorem Widens.bind {runs : Nat → Run α} {next : Nat → α → Run β} (hruns : Widens runs)
    (hnext : ∀ value, Widens (next · value)) : Widens fun bound => runs bound >>= next bound := by
  intro bound larger hle
  rw [below_iff]
  exact (below_iff.mp (hruns _ _ hle)).bind fun value => below_iff.mp (hnext value _ _ hle)

theorem widens_mapM {runs : Nat → α → Run β} (hruns : ∀ item, Widens (runs · item))
    (items : List α) : Widens fun bound => items.mapM (runs bound) := by
  intro bound larger hle
  rw [below_iff]
  exact Follows.mapM (fun item => below_iff.mp (hruns item _ _ hle)) items

theorem Widens.eq {runs : Nat → Run α} (hruns : Widens runs) {bound larger : Nat}
    (hle : bound ≤ larger) {outcome : Except Halt α} {store after : Store}
    (hrun : runs bound store = (outcome, after)) (hends : outcome ≠ .error .unfinished) :
    runs larger store = (outcome, after) := by
  rw [← hrun]
  refine ((hruns _ _ hle store).resolve_left ?_).symm
  rwa [hrun]

theorem Widens.unique {runs : Nat → Run α} (hruns : Widens runs) {bound other : Nat}
    {outcome outcome' : Except Halt α} {store after after' : Store}
    (hrun : runs bound store = (outcome, after)) (hends : outcome ≠ .error .unfinished)
    (hother : runs other store = (outcome', after')) (hends' : outcome' ≠ .error .unfinished) :
    outcome = outcome' ∧ after = after' := by
  have hlarger := hruns.eq (Nat.le_max_left bound other) hrun hends
  rw [hruns.eq (Nat.le_max_right bound other) hother hends'] at hlarger
  cases hlarger
  exact ⟨rfl, rfl⟩

/-! ## One direction -/

/-- If the first evaluation ends, the second one ends alike. -/
def Finishes (R : Store → Store → Prop) (runs others : Nat → Run α) (first second : Store) : Prop :=
  ∀ bound outcome after, runs bound first = (outcome, after) → outcome ≠ .error .unfinished →
    ∃ larger after', others larger second = (outcome, after') ∧ R after after'

theorem Finishes.bind {R : Store → Store → Prop} {first second : Store} {runs others : Nat → Run α}
    {next further : Nat → α → Run β} (hothers : Widens others)
    (hfurther : ∀ value, Widens (further · value)) (hruns : Finishes R runs others first second)
    (hnext : ∀ bound larger value after after', runs bound first = (.ok value, after) →
      others larger second = (.ok value, after') → R after after' →
        Finishes R (next · value) (further · value) after after') :
    Finishes R (fun bound => runs bound >>= next bound)
      (fun bound => others bound >>= further bound) first second := by
  intro bound outcome last hrun hends
  dsimp only at hrun ⊢
  rcases hfirst : runs bound first with ⟨halt | value, after⟩
  · rw [bind_of_halt hfirst] at hrun
    cases hrun
    have hhalt : (.error halt : Except Halt α) ≠ .error .unfinished := by
      rintro ⟨⟩
      exact hends rfl
    obtain ⟨larger, after', hsecond, hrelated⟩ := hruns _ _ _ hfirst hhalt
    exact ⟨larger, after', bind_of_halt hsecond _, hrelated⟩
  · rw [bind_of_ok hfirst] at hrun
    obtain ⟨larger, after', hsecond, hrelated⟩ := hruns _ _ _ hfirst (ok_ne_unfinished value)
    obtain ⟨more, last', hlast, hrelated'⟩ :=
      hnext bound larger value after after' hfirst hsecond hrelated bound outcome last hrun hends
    -- The second evaluation needs a bound that is enough for both of its parts.
    refine ⟨max larger more, last', ?_, hrelated'⟩
    rw [bind_of_ok (hothers.eq (Nat.le_max_left larger more) hsecond (ok_ne_unfinished value))]
    exact (hfurther value).eq (Nat.le_max_right larger more) hlast hends

/-! ## Both directions -/

/-- Each of two evaluations ends if the other one does, and they end alike. -/
structure Together (runs others : Nat → Run α) (first second : Store) : Prop where
  forth : Finishes Gathered runs others first second
  back : Finishes (fun after' after => Gathered after after') others runs second first

variable {first second : Store}

/-- Two evaluations that end alike, each within a bound of its own. -/
theorem together_of_ends {runs others : Nat → Run α} (hwiden : Widens runs)
    (hwiden' : Widens others) (bound larger : Nat) {outcome : Except Halt α} {after after' : Store}
    (hrun : runs bound first = (outcome, after)) (hother : others larger second = (outcome, after'))
    (hends : outcome ≠ .error .unfinished) (hstores : after.Gathered after') :
    Together runs others first second where
  forth other outcome' last hlast hends' := by
    obtain ⟨rfl, rfl⟩ := hwiden.unique hrun hends hlast hends'
    exact ⟨larger, after', hother, hstores⟩
  back other outcome' last hlast hends' := by
    obtain ⟨rfl, rfl⟩ := hwiden'.unique hother hends hlast hends'
    exact ⟨bound, after, hrun, hstores⟩

/-- Two evaluations that do the same under every bound. -/
theorem together_of_forall {runs others : Nat → Run α}
    (hsame : ∀ bound, (runs bound first).1 = (others bound second).1 ∧
      (runs bound first).2.Gathered (others bound second).2) :
    Together runs others first second where
  forth bound outcome after hrun _ := by
    have hother := hsame bound
    rw [hrun] at hother
    exact ⟨bound, (others bound second).2, Prod.ext hother.1.symm (Eq.refl _), hother.2⟩
  back bound outcome after hother _ := by
    have hrun := hsame bound
    rw [hother] at hrun
    exact ⟨bound, (runs bound first).2, Prod.ext hrun.1 (Eq.refl _), hrun.2⟩

theorem Together.bind {runs others : Nat → Run α} {next further : Nat → α → Run β}
    (hwiden : Widens runs) (hwiden' : Widens others)
    (hnexts : ∀ value, Widens (next · value)) (hfurther : ∀ value, Widens (further · value))
    (hruns : Together runs others first second)
    (hnext : ∀ bound value after after', runs bound first = (.ok value, after) →
      Gathered after after' → Together (next · value) (further · value) after after') :
    Together (fun bound => runs bound >>= next bound)
      (fun bound => others bound >>= further bound) first second where
  forth := hruns.forth.bind hwiden' hfurther fun bound _ value after after' hrun _ hrelated =>
    (hnext bound value after after' hrun hrelated).forth
  back := hruns.back.bind hwiden hnexts fun _ bound value after' after _ hrun hrelated =>
    (hnext bound value after after' hrun hrelated).back

end Run
end Rulebook
