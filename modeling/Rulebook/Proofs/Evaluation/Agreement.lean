import Rulebook.Proofs.Evaluation.Moves
import Rulebook.Proofs.Scope.Growth

/-!
# Runs that agree

Two runs agree from two stores when they end with the same outcome, in stores that are related
again.  The second run is often the first one from a store that differs where nobody looks; with a
relation that holds only between a store and itself, agreement says what a single run keeps.

Besides, a run adds frames and events but takes none back, and every evaluator ends inside the host
call in which it began.  This is part of agreement, so that what is known of a store can be carried
on to the stores after it.
-/

namespace Rulebook

/-! ## Callback depths -/

theorem getD_setDepth (depths : List Nat) (index depth other : Nat) :
    (setDepth depths index depth).getD other 0 =
      if other = index then depth else depths.getD other 0 := by
  induction depths generalizing index other with
  | nil =>
      induction index generalizing other with
      | zero => cases other <;> simp [setDepth]
      | succ index ih =>
          cases other with
          | zero => simp [setDepth]
          | succ other => simpa [setDepth] using ih other
  | cons first rest ih =>
      cases index with
      | zero => cases other <;> simp [setDepth]
      | succ index =>
          cases other with
          | zero => simp [setDepth]
          | succ other => simpa [setDepth] using ih index other

namespace Store

theorem callbackDepth_setCallbackDepth (store : Store) (evaluator : EvaluatorId) (depth : Nat)
    (other : EvaluatorId) :
    (store.setCallbackDepth evaluator depth).callbackDepth other =
      if other = evaluator then depth else store.callbackDepth other :=
  getD_setDepth store.callbackDepths evaluator depth other

/-! ## What comes after a store -/

/-- The second store may have come out of the first one: frames keep their parents, and events
stay. -/
structure Later (before after : Store) : Prop where
  size : before.frames.size ≤ after.frames.size
  parent : ∀ id < before.frames.size, after.parent? id = before.parent? id
  trace : ∃ events, after.trace.toList = before.trace.toList ++ events

def Lasts (good : Store → α → Prop) : Prop :=
  ∀ before after value, Later before after → good before value → good after value

/-- The second store may have come out of the first one by a run. -/
structure Resumes (before after : Store) : Prop extends Later before after where
  depth : ∀ evaluator, after.callbackDepth evaluator = before.callbackDepth evaluator

structure SameRest (first second : Store) : Prop where
  depths : first.callbackDepths = second.callbackDepths
  closures : first.closures = second.closures
  notes : first.notes = second.notes
  trace : first.trace = second.trace

theorem SameRest.callbackDepth {first second : Store} (hrest : SameRest first second)
    (evaluator : EvaluatorId) : first.callbackDepth evaluator = second.callbackDepth evaluator := by
  rw [Store.callbackDepth, Store.callbackDepth, hrest.depths]

theorem parent?_congr {first second : Store} (hframes : second.frames = first.frames)
    (id : FrameId) : second.parent? id = first.parent? id := by
  rw [parent?, parent?, hframes]

namespace Later

variable {before middle after : Store}

theorem of_frames_eq (hframes : after.frames = before.frames)
    (htrace : ∃ events, after.trace.toList = before.trace.toList ++ events) :
    Later before after where
  size := by rw [hframes]
  parent id _ := parent?_congr hframes id
  trace := htrace

theorem trans (hfirst : Later before middle) (hlast : Later middle after) :
    Later before after where
  size := Nat.le_trans hfirst.size hlast.size
  parent id hid := by
    rw [hlast.parent id (Nat.lt_of_lt_of_le hid hfirst.size), hfirst.parent id hid]
  trace := by
    obtain ⟨events, hevents⟩ := hfirst.trace
    obtain ⟨further, hfurther⟩ := hlast.trace
    exact ⟨events ++ further, by rw [hfurther, hevents, List.append_assoc]⟩

theorem trace_size (hlater : Later before after) : before.trace.size ≤ after.trace.size := by
  obtain ⟨events, hevents⟩ := hlater.trace
  have hlength := congrArg List.length hevents
  simp only [Array.length_toList, List.length_append] at hlength
  omega

theorem setCallbackDepth (store : Store) (evaluator : EvaluatorId) (depth : Nat) :
    Later store (store.setCallbackDepth evaluator depth) :=
  .of_frames_eq rfl ⟨[], (List.append_nil _).symm⟩

end Later

namespace Resumes

variable {before middle after : Store}

theorem of_frames_eq (hframes : after.frames = before.frames)
    (htrace : ∃ events, after.trace.toList = before.trace.toList ++ events)
    (hdepths : after.callbackDepths = before.callbackDepths) : Resumes before after where
  toLater := .of_frames_eq hframes htrace
  depth evaluator := by rw [callbackDepth, callbackDepth, hdepths]

theorem refl (store : Store) : Resumes store store :=
  .of_frames_eq rfl ⟨[], (List.append_nil _).symm⟩ rfl

theorem trans (hfirst : Resumes before middle) (hlast : Resumes middle after) :
    Resumes before after where
  toLater := hfirst.toLater.trans hlast.toLater
  depth evaluator := by rw [hlast.depth, hfirst.depth]

theorem log (store : Store) (event : Event) : Resumes store (store.log event) :=
  .of_frames_eq rfl ⟨[event], by simp [Store.log]⟩ rfl

theorem define (store : Store) (id : FrameId) (name : String) (value : Term) :
    Resumes store (store.define id name value) where
  size := by rw [size_define]
  parent other _ := parent?_define store id other name value
  trace := ⟨[], (List.append_nil _).symm⟩
  depth _ := rfl

theorem push (store : Store) (frame : Frame) : Resumes store (store.push frame).1 where
  size := Nat.le_of_lt (lt_size_push store frame)
  parent id hid := by rw [parent?, parent?, getElem?_push hid]
  trace := ⟨[], (List.append_nil _).symm⟩
  depth _ := rfl

theorem atCallbackDepth {evaluator : EvaluatorId} {depth : Nat}
    (hinside : Resumes (before.setCallbackDepth evaluator depth) after) :
    Resumes before (after.setCallbackDepth evaluator (before.callbackDepth evaluator)) where
  size := hinside.size
  parent := hinside.parent
  trace := hinside.trace
  depth other := by
    have hother := hinside.depth other
    rw [callbackDepth_setCallbackDepth] at hother ⊢
    by_cases hsame : other = evaluator
    · rw [if_pos hsame, hsame]
    · rw [if_neg hsame] at hother ⊢
      exact hother

end Resumes

/-- A relation that is not broken by changes outside of the frames that are made on both sides. -/
structure Framing (R : Store → Store → Prop) : Prop where
  rest : ∀ {first second}, R first second → SameRest first second
  keep : ∀ {first second first' second' : Store}, R first second →
    first'.frames = first.frames → second'.frames = second.frames → SameRest first' second' →
    (∃ events, first'.trace.toList = first.trace.toList ++ events) → R first' second'

theorem SameRest.eq_of_frames_eq {first second : Store} (hrest : SameRest first second)
    (hframes : first.frames = second.frames) : first = second := by
  obtain ⟨hdepths, hclosures, hnotes, htrace⟩ := hrest
  cases first
  cases second
  simp only [Store.mk.injEq]
  exact ⟨hframes, hdepths, hclosures, hnotes, htrace⟩

/-- A property of a single store that does not depend on more than its frames and its events. -/
theorem framing_single {inv : Store → Prop}
    (hkeep : ∀ {before after : Store}, inv before → after.frames = before.frames →
      Later before after → inv after) :
    Framing fun first second => first = second ∧ inv first where
  rest := by
    rintro first _ ⟨rfl, _⟩
    exact ⟨rfl, rfl, rfl, rfl⟩
  keep := by
    rintro first _ first' second' ⟨rfl, hinv⟩ hframes hframes' hrest htrace
    exact ⟨hrest.eq_of_frames_eq (hframes.trans hframes'.symm),
      hkeep hinv hframes (.of_frames_eq hframes htrace)⟩

namespace Framing

variable {R : Store → Store → Prop} {first second : Store}

theorem log (hR : Framing R) (hstores : R first second) (event : Event) :
    R (first.log event) (second.log event) := by
  obtain ⟨hdepths, hclosures, hnotes, htrace⟩ := hR.rest hstores
  refine hR.keep hstores rfl rfl ⟨hdepths, hclosures, hnotes, ?_⟩ ⟨[event], by simp [Store.log]⟩
  simp [Store.log, htrace]

theorem note (hR : Framing R) (hstores : R first second) (tag : Term) :
    R { first with notes := first.notes.push tag }
      { second with notes := second.notes.push tag } := by
  obtain ⟨hdepths, hclosures, hnotes, htrace⟩ := hR.rest hstores
  refine hR.keep hstores rfl rfl ⟨hdepths, hclosures, ?_, htrace⟩ ⟨[], (List.append_nil _).symm⟩
  simp [hnotes]

theorem setCallbackDepth (hR : Framing R) (hstores : R first second) (evaluator : EvaluatorId)
    (depth : Nat) :
    R (first.setCallbackDepth evaluator depth) (second.setCallbackDepth evaluator depth) := by
  obtain ⟨hdepths, hclosures, hnotes, htrace⟩ := hR.rest hstores
  refine hR.keep hstores rfl rfl ⟨?_, hclosures, hnotes, htrace⟩ ⟨[], (List.append_nil _).symm⟩
  simp [Store.setCallbackDepth, hdepths]

end Framing

end Store

/-! ## Agreement -/

namespace Run

open Store

/-- Two runs end alike, in related stores that come after those that they began in, and a value has
a property there. -/
structure Agree (R : Store → Store → Prop) (good : Store → α → Prop) (run other : Run α)
    (first second : Store) : Prop where
  outcome : (run first).1 = (other second).1
  related : R (run first).2 (other second).2
  resumes : Resumes first (run first).2
  good : ∀ value, (run first).1 = .ok value → good (run first).2 value

variable {R : Store → Store → Prop} {good : Store → α → Prop} {first second : Store}

theorem Agree.of_eq {run other : Run α} {outcome : Except Halt α} {after after' : Store}
    (hrun : run first = (outcome, after)) (hother : other second = (outcome, after'))
    (hrelated : R after after') (hresumes : Resumes first after)
    (hgood : ∀ value, outcome = .ok value → good after value) :
    Agree R good run other first second where
  outcome := by rw [hrun, hother]
  related := by rwa [hrun, hother]
  resumes := by rwa [hrun]
  good := by rwa [hrun]

theorem agree_pure (hstores : R first second) {value : α} (hvalue : good first value) :
    Agree R good (pure value) (pure value) first second := by
  apply Agree.of_eq rfl rfl hstores (.refl first)
  intro other hother
  cases hother
  exact hvalue

theorem agree_throw (hstores : R first second) (halt : Halt) :
    Agree R good (throw halt) (throw halt) first second := by
  apply Agree.of_eq rfl rfl hstores (.refl first)
  intro value hvalue
  cases hvalue

theorem agree_fail (hstores : R first second) (fault : Fault) :
    Agree R good (Run.fail fault) (Run.fail fault) first second :=
  agree_throw hstores (.fault fault)

theorem agree_ofExcept (hstores : R first second) {outcome : Except Fault α}
    (houtcome : ∀ value, outcome = .ok value → good first value) :
    Agree R good (Run.ofExcept outcome) (Run.ofExcept outcome) first second := by
  cases outcome with
  | error fault => exact agree_fail hstores fault
  | ok value => exact agree_pure hstores (houtcome value rfl)

theorem agree_get {next further : Store → Run α}
    (hnext : Agree R good (next first) (further second) first second) :
    Agree R good (get >>= next) (get >>= further) first second :=
  ⟨hnext.outcome, hnext.related, hnext.resumes, hnext.good⟩

theorem Agree.bind {great : Store → β → Prop} {run other : Run α} {next further : α → Run β}
    (hrun : Agree R good run other first second)
    (hnext : ∀ value after after', run first = (.ok value, after) → R after after' →
      Resumes first after → good after value →
      Agree R great (next value) (further value) after after') :
    Agree R great (run >>= next) (other >>= further) first second := by
  obtain ⟨houtcome, hrelated, hresumes, hgood⟩ := hrun
  rcases hfirst : run first with ⟨halt | value, after⟩
  · rcases hsecond : other second with ⟨outcome, after'⟩
    simp only [hfirst, hsecond] at houtcome hrelated hresumes
    subst houtcome
    apply Agree.of_eq (bind_of_halt hfirst next) (bind_of_halt hsecond further) hrelated hresumes
    intro value hvalue
    cases hvalue
  · rcases hsecond : other second with ⟨outcome, after'⟩
    simp only [hfirst, hsecond] at houtcome hrelated hresumes hgood
    subst houtcome
    have hrest := hnext value after after' hfirst hrelated hresumes (hgood value rfl)
    constructor
    · rw [bind_of_ok hfirst, bind_of_ok hsecond]
      exact hrest.outcome
    · rw [bind_of_ok hfirst, bind_of_ok hsecond]
      exact hrest.related
    · rw [bind_of_ok hfirst]
      exact hresumes.trans hrest.resumes
    · rw [bind_of_ok hfirst]
      exact hrest.good

theorem Agree.map {great : Store → β → Prop} {run other : Run α} {f : α → β}
    (hrun : Agree R good run other first second)
    (hf : ∀ store value, good store value → great store (f value)) :
    Agree R great (f <$> run) (f <$> other) first second := by
  rw [map_eq_pure_bind, map_eq_pure_bind]
  apply hrun.bind
  intro value after after' _ hrelated _ hgood
  exact agree_pure hrelated (hf after value hgood)

theorem agree_mapM {great : Store → β → Prop} {f g : α → Run β} {items : List α}
    (hstores : R first second)
    (hlasts : Lasts great)
    (hitems : ∀ item ∈ items, ∀ after after', R after after' → Resumes first after →
      Agree R great (f item) (g item) after after') :
    Agree R (fun store values => ∀ value ∈ values, great store value) (items.mapM f)
      (items.mapM g) first second := by
  induction items generalizing first second with
  | nil =>
      apply agree_pure hstores
      exact fun value hvalue => absurd hvalue List.not_mem_nil
  | cons item rest ih =>
      rw [List.mapM_cons, List.mapM_cons]
      apply (hitems item List.mem_cons_self first second hstores (.refl first)).bind
      intro value after after' _ hrelated hresumes hvalue
      have hrest := ih hrelated fun other hother later later' hlaters hresumes' =>
        hitems other (List.mem_cons_of_mem item hother) later later' hlaters
          (hresumes.trans hresumes')
      apply hrest.bind
      intro values last last' _ hlast hresumes' hvalues
      apply agree_pure hlast
      intro other hother
      rcases List.mem_cons.mp hother with rfl | hother
      · exact hlasts _ _ _ hresumes'.toLater hvalue
      · exact hvalues other hother

theorem agree_foldlM {great : Store → β → Prop} {f g : β → α → Run β} {items : List α}
    {start : β} (hstores : R first second) (hstart : great first start)
    (hitems : ∀ item ∈ items, ∀ value after after', R after after' → Resumes first after →
      Agree R great (f value item) (g value item) after after') :
    Agree R great (items.foldlM f start) (items.foldlM g start) first second := by
  induction items generalizing first second start with
  | nil => exact agree_pure hstores hstart
  | cons item rest ih =>
      rw [List.foldlM_cons, List.foldlM_cons]
      apply (hitems item List.mem_cons_self start first second hstores (.refl first)).bind
      intro value after after' _ hrelated hresumes hvalue
      exact ih hrelated hvalue fun other hother value later later' hlaters hresumes' =>
        hitems other (List.mem_cons_of_mem item hother) value later later' hlaters
          (hresumes.trans hresumes')

theorem Agree.observe {run other : Run α} (hrun : Agree R good run other first second) :
    Agree R (fun store outcome => ∀ value, outcome = .ok value → good store value)
      (Run.observe run) (Run.observe other) first second := by
  obtain ⟨houtcome, hrelated, hresumes, hgood⟩ := hrun
  rcases hfirst : run first with ⟨outcome, after⟩
  rcases hsecond : other second with ⟨outcome', after'⟩
  simp only [hfirst, hsecond] at houtcome hrelated hresumes hgood
  subst houtcome
  rcases outcome with (fault | _) | value
  · have hobserved : Run.observe run first = (.ok (.error fault), after) := by
      rw [Run.observe, hfirst]
    have hobserved' : Run.observe other second = (.ok (.error fault), after') := by
      rw [Run.observe, hsecond]
    apply Agree.of_eq hobserved hobserved' hrelated hresumes
    rintro _ ⟨⟩ value hvalue
    cases hvalue
  · have hobserved : Run.observe run first = (.error .unfinished, after) := by
      rw [Run.observe, hfirst]
    have hobserved' : Run.observe other second = (.error .unfinished, after') := by
      rw [Run.observe, hsecond]
    apply Agree.of_eq hobserved hobserved' hrelated hresumes
    intro value hvalue
    cases hvalue
  · have hobserved : Run.observe run first = (.ok (.ok value), after) := by
      rw [Run.observe, hfirst]
    have hobserved' : Run.observe other second = (.ok (.ok value), after') := by
      rw [Run.observe, hsecond]
    apply Agree.of_eq hobserved hobserved' hrelated hresumes
    rintro _ ⟨⟩ other hother
    cases hother
    exact hgood value rfl

theorem agree_log (hR : Framing R) (hstores : R first second) (event : Event) :
    Agree R (fun _ _ => True) (Run.log event) (Run.log event) first second :=
  .of_eq rfl rfl (hR.log hstores event) (.log first event) fun _ _ => trivial

theorem Agree.atCallbackDepth (hR : Framing R) (hstores : R first second)
    (hlasts : Lasts good)
    {run other : Run α} {evaluator : EvaluatorId} {depth : Nat}
    (hrun : Agree R good run other (first.setCallbackDepth evaluator depth)
      (second.setCallbackDepth evaluator depth)) :
    Agree R good (Run.atCallbackDepth evaluator depth run)
      (Run.atCallbackDepth evaluator depth other) first second where
  outcome := hrun.outcome
  related := by
    have hafter := hR.setCallbackDepth hrun.related evaluator (first.callbackDepth evaluator)
    change R _ ((other _).2.setCallbackDepth evaluator (second.callbackDepth evaluator))
    rw [← (hR.rest hstores).callbackDepth evaluator]
    exact hafter
  resumes := hrun.resumes.atCallbackDepth
  good value hvalue := by
    exact hlasts _ _ value (.setCallbackDepth _ _ _) (hrun.good value hvalue)

end Run

end Rulebook
