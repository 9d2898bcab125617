import Rulebook.Proofs.Evaluation.Agreement
import Rulebook.Proofs.Term.Likeness

/-!
# Runs in lockstep

Two runs that start from two stores are in lockstep when they end with the same halt or with related
values, and leave related stores.  How values are related may depend on the store of the first run,
as long as it does not change while that store goes on.

Runs that are put together in the same way out of runs in lockstep are in lockstep.  So what has to
be shown of two evaluations is how their operations on the store compare.
-/

namespace Rulebook

theorem Outcomes.eq {x y : Except ε α} (houtcome : Outcomes Eq x y) : x = y := by
  cases houtcome with
  | ok hvalue => rw [hvalue]
  | error fault => rfl

namespace Run

open Store

/-- Two runs end alike in related stores, the first of them in a store that comes after its own. -/
structure InStep (R : Store → Store → Prop) (V : Store → α → β → Prop) (run : Run α)
    (other : Run β) (first second : Store) : Prop where
  outcome : Outcomes (V (run first).2) (run first).1 (other second).1
  related : R (run first).2 (other second).2
  later : Later first (run first).2

variable {R : Store → Store → Prop} {V : Store → α → β → Prop} {W : Store → γ → δ → Prop}
  {first second : Store}

theorem InStep.of_eq {run : Run α} {other : Run β} {outcome : Except Halt α}
    {outcome' : Except Halt β} {after after' : Store} (hrun : run first = (outcome, after))
    (hother : other second = (outcome', after')) (houtcome : Outcomes (V after) outcome outcome')
    (hrelated : R after after') (hlater : Later first after) :
    InStep R V run other first second where
  outcome := by rwa [hrun, hother]
  related := by rwa [hrun, hother]
  later := by rwa [hrun]

theorem inStep_pure (hstores : R first second) {a : α} {b : β} (hvalue : V first a b) :
    InStep R V (pure a) (pure b) first second :=
  .of_eq rfl rfl (.ok hvalue) hstores (Resumes.refl first).toLater

theorem inStep_throw (hstores : R first second) (halt : Halt) :
    InStep R V (throw halt) (throw halt) first second :=
  .of_eq rfl rfl (.error halt) hstores (Resumes.refl first).toLater

theorem inStep_fail (hstores : R first second) (fault : Fault) :
    InStep R V (Run.fail fault) (Run.fail fault) first second :=
  inStep_throw hstores (.fault fault)

theorem inStep_ofExcept (hstores : R first second) {x : Except Fault α} {y : Except Fault β}
    (hvalue : Outcomes (V first) x y) :
    InStep R V (Run.ofExcept x) (Run.ofExcept y) first second := by
  cases hvalue with
  | ok hvalue => exact inStep_pure hstores hvalue
  | error fault => exact inStep_fail hstores fault

theorem inStep_get {next : Store → Run α} {further : Store → Run β}
    (hnext : InStep R V (next first) (further second) first second) :
    InStep R V (get >>= next) (get >>= further) first second :=
  ⟨hnext.outcome, hnext.related, hnext.later⟩

/-- Runs are continued from the stores that they have in fact led to. -/
theorem InStep.bind_of_ok {run : Run α} {other : Run β} {next : α → Run γ} {further : β → Run δ}
    (hruns : InStep R V run other first second)
    (hnext : ∀ a b after after', run first = (.ok a, after) → R after after' → V after a b →
      InStep R W (next a) (further b) after after') :
    InStep R W (run >>= next) (other >>= further) first second := by
  obtain ⟨houtcome, hrelated, hlater⟩ := hruns
  rcases hfirst : run first with ⟨outcome, after⟩
  rcases hsecond : other second with ⟨outcome', after'⟩
  simp only [hfirst, hsecond] at houtcome hrelated hlater
  cases houtcome with
  | error halt =>
      exact .of_eq (bind_of_halt hfirst next) (bind_of_halt hsecond further) (.error halt) hrelated
        hlater
  | ok hvalue =>
      obtain ⟨houtcome', hrelated', hlater'⟩ := hnext _ _ after after' hfirst hrelated hvalue
      apply InStep.of_eq (Run.bind_of_ok hfirst next) (Run.bind_of_ok hsecond further)
      · exact houtcome'
      · exact hrelated'
      · exact hlater.trans hlater'

theorem InStep.bind {run : Run α} {other : Run β} {next : α → Run γ} {further : β → Run δ}
    (hruns : InStep R V run other first second)
    (hnext : ∀ a b after after', R after after' → Later first after → V after a b →
      InStep R W (next a) (further b) after after') :
    InStep R W (run >>= next) (other >>= further) first second := by
  apply hruns.bind_of_ok
  intro a b after after' hrun hrelated
  have hlater := hruns.later
  rw [hrun] at hlater
  exact hnext a b after after' hrelated hlater

theorem InStep.map {f : α → γ} {g : β → δ} {run : Run α} {other : Run β}
    (hruns : InStep R V run other first second)
    (hf : ∀ store a b, V store a b → W store (f a) (g b)) :
    InStep R W (f <$> run) (g <$> other) first second := by
  rw [map_eq_pure_bind, map_eq_pure_bind]
  apply hruns.bind
  intro a b after after' hrelated _ hvalue
  exact inStep_pure hrelated (hf after a b hvalue)

theorem InStep.observe {run : Run α} {other : Run β} (hruns : InStep R V run other first second) :
    InStep R (fun store => Outcomes (V store)) (Run.observe run) (Run.observe other) first
      second := by
  obtain ⟨houtcome, hrelated, hlater⟩ := hruns
  rcases hfirst : run first with ⟨outcome, after⟩
  rcases hsecond : other second with ⟨outcome', after'⟩
  simp only [hfirst, hsecond] at houtcome hrelated hlater
  cases houtcome with
  | ok hvalue =>
      exact .of_eq (by rw [Run.observe, hfirst]) (by rw [Run.observe, hsecond]) (.ok (.ok hvalue))
        hrelated hlater
  | error halt =>
      cases halt with
      | fault fault =>
          exact .of_eq (by rw [Run.observe, hfirst]) (by rw [Run.observe, hsecond])
            (.ok (.error fault)) hrelated hlater
      | unfinished =>
          exact .of_eq (by rw [Run.observe, hfirst]) (by rw [Run.observe, hsecond]) (.error _)
            hrelated hlater

/-! ## Runs that stay in bounds -/

theorem runOrder_resumes : RunOrder Resumes where
  refl := Resumes.refl
  trans := Resumes.trans

/-- Two runs are in lockstep as long as the first one leaves a store that counts. -/
def Tracks (counts : Store → Prop) (R : Store → Store → Prop) (V : Store → α → β → Prop)
    (run : Run α) (other : Run β) (first second : Store) : Prop :=
  counts (run first).2 → InStep R V run other first second

section Tracks

variable {counts : Store → Prop}

/-- A store that counts has come out of stores that do. -/
def Shrinks (counts : Store → Prop) : Prop :=
  ∀ before after, Later before after → counts after → counts before

theorem InStep.tracks {run : Run α} {other : Run β} (hruns : InStep R V run other first second) :
    Tracks counts R V run other first second :=
  fun _ => hruns

theorem Tracks.bind (hcounts : Shrinks counts) {run : Run α} {other : Run β} {next : α → Run γ}
    {further : β → Run δ} (hruns : Tracks counts R V run other first second)
    (hmoves : ∀ a, Moves Resumes (next a))
    (hnext : ∀ a b after after', R after after' → Later first after → V after a b →
      Tracks counts R W (next a) (further b) after after') :
    Tracks counts R W (run >>= next) (other >>= further) first second := by
  intro hend
  have hmiddle : counts (run first).2 := by
    rcases hfirst : run first with ⟨halt | a, after⟩
    · rwa [bind_of_halt hfirst] at hend
    · rw [bind_of_ok hfirst] at hend
      exact hcounts _ _ (hmoves a after).toLater hend
  have hsteps := hruns hmiddle
  apply hsteps.bind_of_ok
  intro a b after after' hrun hrelated hvalue
  have hlater := hsteps.later
  rw [hrun] at hlater
  rw [bind_of_ok hrun] at hend
  exact hnext a b after after' hrelated hlater hvalue hend

theorem tracks_mapM (hcounts : Shrinks counts) {f : α → Run γ} {g : β → Run δ} {h : α → β}
    {items : List α} (hstores : R first second) (hmoves : ∀ a, Moves Resumes (f a))
    (hW : ∀ before after c d, Later before after → W before c d → W after c d)
    (hf : ∀ a ∈ items, ∀ after after', R after after' → Later first after →
      Tracks counts R W (f a) (g (h a)) after after') :
    Tracks counts R (fun store => List.Forall₂ (W store)) (items.mapM f) ((items.map h).mapM g)
      first second := by
  induction items generalizing first second with
  | nil => exact (inStep_pure hstores .nil).tracks
  | cons item rest ih =>
      rw [List.map_cons, List.mapM_cons, List.mapM_cons]
      have hitem := hf item List.mem_cons_self first second hstores (Resumes.refl first).toLater
      apply hitem.bind hcounts
      · intro value
        exact runOrder_resumes.bind (runOrder_resumes.mapM fun other _ => hmoves other) fun _ =>
          runOrder_resumes.pure _
      intro value value' after after' hrelated hlater hvalue
      have hrest := ih hrelated fun other hother last last' hlast hlater' =>
        hf other (List.mem_cons_of_mem item hother) last last' hlast (hlater.trans hlater')
      apply hrest.bind hcounts fun _ => runOrder_resumes.pure _
      intro values values' last last' hlast hlater' hvalues
      exact (inStep_pure hlast (.cons (hW _ _ _ _ hlater' hvalue) hvalues)).tracks

theorem tracks_foldlM (hcounts : Shrinks counts) {f : γ → α → Run γ} {g : δ → β → Run δ} {h : α → β}
    {items : List α} {start : γ} {start' : δ} (hstores : R first second)
    (hmoves : ∀ c a, Moves Resumes (f c a)) (hstart : W first start start')
    (hf : ∀ c d, ∀ a ∈ items, ∀ after after', R after after' → Later first after →
      Tracks counts R W (f c a) (g d (h a)) after after') :
    Tracks counts R W (items.foldlM f start) ((items.map h).foldlM g start') first second := by
  induction items generalizing first second start start' with
  | nil => exact (inStep_pure hstores hstart).tracks
  | cons item rest ih =>
      rw [List.map_cons, List.foldlM_cons, List.foldlM_cons]
      have hitem := hf start start' item List.mem_cons_self first second hstores
        (Resumes.refl first).toLater
      apply hitem.bind hcounts
      · exact fun value => runOrder_resumes.foldlM (fun other _ c => hmoves c other) value
      intro value value' after after' hrelated hlater hvalue
      exact ih hrelated hvalue fun c d other hother last last' hlast hlater' =>
        hf c d other (List.mem_cons_of_mem item hother) last last' hlast (hlater.trans hlater')

theorem Tracks.observe {run : Run α} {other : Run β}
    (hruns : Tracks counts R V run other first second) :
    Tracks counts R (fun store => Outcomes (V store)) (Run.observe run) (Run.observe other) first
      second := by
  have hstore : (Run.observe run first).2 = (run first).2 := by
    rw [Run.observe]
    rcases run first with ⟨(fault | _) | value, after⟩ <;> rfl
  intro hend
  rw [hstore] at hend
  exact (hruns hend).observe

end Tracks

end Run
end Rulebook
