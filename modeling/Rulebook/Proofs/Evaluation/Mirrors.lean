import Rulebook.Evaluation.Evaluator
import Rulebook.Proofs.Scope.Twins

/-!
# Runs that mirror each other

Two runs mirror each other when they end with the same fault or with alike values, in twin stores.
One of the two is known to end, and if it does not, nothing is said about the other one.  The first
one can be stopped by a guard, which leaves a mark in the store when it does.
-/

namespace Rulebook
namespace Recoding

variable {R : Recoding}

/-- Which of two runs is known to end.  If it is the second one, the first one may still be stopped,
in a store with a mark. -/
inductive Side where
  | first
  | second (mark : Nat)

def Side.Stops : Side → Nat → Prop
  | .first, _ => True
  | .second mark, closures => closures = mark

def Side.Excuses (side : Side) (x : Except Halt α × Store) (y : Except Halt β × Store) : Prop :=
  x.1 = .error .unfinished ∧ side.Stops x.2.closures ∨ y.1 = .error .unfinished ∧ side ≠ .first

/-- What the two runs end with is the same fault or a pair of related values, and no frame has lost
`list`. -/
structure Ends (R : Recoding) (related : Store → α → β → Prop) (before : Store)
    (x : Except Halt α × Store) (y : Except Halt β × Store) : Prop where
  outcome : Outcomes (related x.2) x.1 y.1
  twin : R.Twin x.2 y.2
  keeps : before.KeepsLists x.2

/-- One run mirrors another one. -/
def Mirrors (R : Recoding) (side : Side) (related : Store → α → β → Prop) (run : Run α)
    (other : Run β) (first second : Store) : Prop :=
  side.Excuses (run first) (other second) ∨
    R.Ends related first (run first) (other second)

section Combinators

variable {side : Side} {first second : Store} {related : Store → α → β → Prop}
  {better : Store → γ → δ → Prop}

theorem Ends.mono {related' : Store → α → β → Prop} {before middle : Store}
    {x : Except Halt α × Store} {y : Except Halt β × Store} (hends : R.Ends related middle x y)
    (hkeeps : before.KeepsLists middle)
    (himp : ∀ a b, related x.2 a b → related' x.2 a b) : R.Ends related' before x y where
  outcome := hends.outcome.mono himp
  twin := hends.twin
  keeps := hkeeps.trans hends.keeps

theorem Mirrors.mono {related' : Store → α → β → Prop} {run : Run α} {other : Run β}
    (hruns : R.Mirrors side related run other first second)
    (himp : ∀ store a b, related store a b → related' store a b) :
    R.Mirrors side related' run other first second :=
  hruns.imp_right fun hends => hends.mono (.refl first) (himp _)

theorem mirrors_pure (htwin : R.Twin first second) {a : α} {b : β} (hvalue : related first a b) :
    R.Mirrors side related (pure a) (pure b) first second :=
  .inr ⟨.ok hvalue, htwin, .refl first⟩

theorem mirrors_throw (htwin : R.Twin first second) (halt : Halt) :
    R.Mirrors side related (throw halt) (throw halt) first second :=
  .inr ⟨.error halt, htwin, .refl first⟩

theorem mirrors_fail (htwin : R.Twin first second) (fault : Fault) :
    R.Mirrors side related (Run.fail fault) (Run.fail fault) first second :=
  mirrors_throw htwin (.fault fault)

theorem mirrors_ofExcept (htwin : R.Twin first second) {x : Except Fault α} {y : Except Fault β}
    (hvalue : Outcomes (related first) x y) :
    R.Mirrors side related (Run.ofExcept x) (Run.ofExcept y) first second := by
  cases hvalue with
  | ok hvalue => exact mirrors_pure htwin hvalue
  | error fault => exact mirrors_fail htwin fault

theorem mirrors_get {next : Store → Run α} {further : Store → Run β}
    (hnext : R.Mirrors side related (next first) (further second) first second) :
    R.Mirrors side related (get >>= next) (get >>= further) first second := by
  rw [Mirrors, Run.get_bind_apply, Run.get_bind_apply]
  exact hnext

theorem Mirrors.bind {run : Run α} {other : Run β} {next : α → Run γ} {further : β → Run δ}
    (hruns : R.Mirrors side related run other first second)
    (hnext : ∀ a b after after', R.Twin after after' → first.KeepsLists after →
      related after a b → R.Mirrors side better (next a) (further b) after after') :
    R.Mirrors side better (run >>= next) (other >>= further) first second := by
  rcases hfirst : run first with ⟨outcome, after⟩
  rcases hsecond : other second with ⟨outcome', after'⟩
  rcases hruns with hexcused | hends
  · rw [hfirst, hsecond] at hexcused
    obtain ⟨rfl, hstops⟩ | ⟨rfl, hside⟩ := hexcused
    · left
      rw [Run.bind_of_halt hfirst]
      exact .inl ⟨rfl, hstops⟩
    · left
      rw [Run.bind_of_halt hsecond]
      exact .inr ⟨rfl, hside⟩
  · obtain ⟨houtcome, htwin, hkeeps⟩ := hends
    rw [hfirst, hsecond] at houtcome htwin
    rw [hfirst] at hkeeps
    rw [Mirrors]
    cases houtcome with
    | error halt =>
        rw [Run.bind_of_halt hfirst, Run.bind_of_halt hsecond]
        exact .inr ⟨.error halt, htwin, hkeeps⟩
    | ok hvalue =>
        rw [Run.bind_of_ok hfirst, Run.bind_of_ok hsecond]
        exact (hnext _ _ _ _ htwin hkeeps hvalue).imp_right fun hends =>
          hends.mono hkeeps fun _ _ hbetter => hbetter

theorem Mirrors.map {f : α → γ} {g : β → δ} {run : Run α} {other : Run β}
    (hruns : R.Mirrors side related run other first second)
    (hf : ∀ store a b, related store a b → better store (f a) (g b)) :
    R.Mirrors side better (f <$> run) (g <$> other) first second := by
  rw [map_eq_pure_bind, map_eq_pure_bind]
  apply hruns.bind
  intro a b after after' htwin _ hvalue
  exact mirrors_pure htwin (hf after a b hvalue)

theorem mirrors_mapM {f : α → Run γ} {g : β → Run δ} {items : List α} {others : List β}
    (htwin : R.Twin first second) (hlasts : Lasts related) (hlasts' : Lasts better)
    (hitems : List.Forall₂ (related first) items others)
    (hf : ∀ a b after after', R.Twin after after' → first.KeepsLists after → related after a b →
      R.Mirrors side better (f a) (g b) after after') :
    R.Mirrors side (fun store => List.Forall₂ (better store)) (items.mapM f) (others.mapM g) first
      second := by
  induction items generalizing others first second with
  | nil =>
      obtain rfl := List.forall₂_nil_left_iff.mp hitems
      exact mirrors_pure htwin .nil
  | cons item rest ih =>
      obtain ⟨other, rest', hitem, hrest, rfl⟩ := List.forall₂_cons_left_iff.mp hitems
      rw [List.mapM_cons, List.mapM_cons]
      apply (hf item other first second htwin (.refl first) hitem).bind
      intro value value' after after' htwin' hkeeps hvalue
      have hvalues := ih htwin' (hrest.imp fun _ _ hlast => hlasts hkeeps hlast)
        fun a b last last' hlast hkeeps' => hf a b last last' hlast (hkeeps.trans hkeeps')
      apply hvalues.bind
      intro values values' last last' hlast hkeeps' hgoods
      exact mirrors_pure hlast (.cons (hlasts' hkeeps' hvalue) hgoods)

theorem mirrors_foldlM {f : γ → α → Run γ} {g : δ → β → Run δ} {items : List α} {others : List β}
    {start : γ} {start' : δ} (htwin : R.Twin first second) (hlasts : Lasts related)
    (hitems : List.Forall₂ (related first) items others) (hstart : better first start start')
    (hf : ∀ c d a b after after', R.Twin after after' → first.KeepsLists after →
      related after a b → R.Mirrors side better (f c a) (g d b) after after') :
    R.Mirrors side better (items.foldlM f start) (others.foldlM g start') first second := by
  induction items generalizing others first second start start' with
  | nil =>
      obtain rfl := List.forall₂_nil_left_iff.mp hitems
      exact mirrors_pure htwin hstart
  | cons item rest ih =>
      obtain ⟨other, rest', hitem, hrest, rfl⟩ := List.forall₂_cons_left_iff.mp hitems
      rw [List.foldlM_cons, List.foldlM_cons]
      apply (hf start start' item other first second htwin (.refl first) hitem).bind
      intro value value' after after' htwin' hkeeps hvalue
      exact ih htwin' (hrest.imp fun _ _ hlast => hlasts hkeeps hlast) hvalue
        fun c d a b last last' hlast hkeeps' => hf c d a b last last' hlast (hkeeps.trans hkeeps')

theorem Mirrors.observe {run : Run α} {other : Run β}
    (hruns : R.Mirrors side related run other first second) :
    R.Mirrors side (fun store => Outcomes (related store)) (Run.observe run) (Run.observe other)
      first second := by
  rcases hfirst : run first with ⟨outcome, after⟩
  rcases hsecond : other second with ⟨outcome', after'⟩
  rw [Mirrors, Run.observe, Run.observe, hfirst, hsecond]
  rw [Mirrors, hfirst, hsecond] at hruns
  rcases hruns with hexcused | ⟨houtcome, htwin, hkeeps⟩
  · obtain ⟨rfl, hstops⟩ | ⟨rfl, hside⟩ := hexcused
    · exact .inl (.inl ⟨rfl, hstops⟩)
    · exact .inl (.inr ⟨rfl, hside⟩)
  · right
    cases houtcome with
    | ok hvalue => exact ⟨.ok (.ok hvalue), htwin, hkeeps⟩
    | error halt =>
        cases halt with
        | fault fault => exact ⟨.ok (.error fault), htwin, hkeeps⟩
        | unfinished => exact ⟨.error _, htwin, hkeeps⟩

theorem mirrors_log (htwin : R.Twin first second) (event event' : Event) :
    R.Mirrors side (fun _ _ _ => True) (Run.log event) (Run.log event') first second :=
  .inr ⟨.ok trivial, htwin.log event event', .of_frames_eq rfl⟩

theorem Mirrors.atCallbackDepth {run : Run α} {other : Run β} (htwin : R.Twin first second)
    (hlasts : Lasts related) {evaluator : EvaluatorId} {depth : Nat}
    (hruns : R.Mirrors side related run other (first.setCallbackDepth evaluator depth)
      (second.setCallbackDepth evaluator depth)) :
    R.Mirrors side related (Run.atCallbackDepth evaluator depth run)
      (Run.atCallbackDepth evaluator depth other) first second := by
  rcases hruns with hexcused | ⟨houtcome, hafter, hkeeps⟩
  · exact .inl hexcused
  · have hstart : first.KeepsLists (first.setCallbackDepth evaluator depth) := .of_frames_eq rfl
    have hended : (run (first.setCallbackDepth evaluator depth)).2.KeepsLists
        (Run.atCallbackDepth evaluator depth run first).2 := .of_frames_eq rfl
    have hrestored := hafter.setCallbackDepth evaluator (first.callbackDepth evaluator)
    refine .inr ⟨houtcome.mono fun a b hvalue => hlasts hended hvalue, ?_, ?_⟩
    · change R.Twin _ ((other _).2.setCallbackDepth evaluator (second.callbackDepth evaluator))
      rw [← htwin.depth]
      exact hrestored
    · exact hstart.trans (hkeeps.trans hended)

end Combinators

end Recoding
end Rulebook
