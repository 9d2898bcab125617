import Rulebook.Proofs.Evaluation.Lockstep
import Rulebook.Proofs.Scope.Lookup

/-!
# Nested host applications

Callback depths are set only where a host application begins and ends, and they are read only by
host code.  Everything else that an evaluation does is the same whatever they are, and it is the
same whatever has been noted in the trace before.

So two evaluations of a task can be compared although the depths are not the same: it is enough to
say, for each place in the nesting of host applications, how the depths compare there and which
tasks may run, and to show that this is respected where a host application begins, where it ends,
and where host code calls back.
-/

namespace Rulebook

/-! ## What depends on the frames only -/

namespace Store

variable {first second : Store}

theorem find?_of_frames_eq (hframes : first.frames = second.frames) (frame : FrameId)
    (name : String) : first.find? frame name = second.find? frame name := by
  apply find?_congr (parent?_congr hframes)
  intro other _
  rw [bindings, bindings, hframes]

theorem snapshot_of_frames_eq (hframes : first.frames = second.frames) (frame : FrameId) :
    first.snapshot frame = second.snapshot frame := by
  apply snapshot_congr (parent?_congr hframes)
  intro other _
  rw [bindings, bindings, hframes]

theorem display?_of_frames_eq (hframes : first.frames = second.frames) (term : Term) :
    first.display? term = second.display? term := by
  have hscope : first.displayScope = second.displayScope := by
    funext frame
    apply displayScope_congr (parent?_congr hframes)
    rw [bindings, bindings, hframes]
  rw [display?, display?, hscope]

theorem scopeAttributes_of_frames_eq (hframes : first.frames = second.frames) (frame : FrameId) :
    first.scopeAttributes frame = second.scopeAttributes frame := by
  have hparent := parent?_congr hframes
  rw [scopeAttributes, scopeAttributes, hparent, depth, depth, chain_congr hparent, bindings,
    bindings, hframes]

/-- Two stores differ only in the callback depths, which are related in a given way, and in what the
trace begins with. -/
structure Beside (depths : List Nat → List Nat → Prop) (past past' : List Event)
    (first second : Store) : Prop where
  frames : first.frames = second.frames
  closures : first.closures = second.closures
  notes : first.notes = second.notes
  depths : depths first.callbackDepths second.callbackDepths
  trace : ∃ events, first.trace.toList = past ++ events ∧ second.trace.toList = past' ++ events

namespace Beside

variable {depths : List Nat → List Nat → Prop} {past past' : List Event}

theorem log (hbeside : Beside depths past past' first second) (event : Event) :
    Beside depths past past' (first.log event) (second.log event) where
  frames := hbeside.frames
  closures := hbeside.closures
  notes := hbeside.notes
  depths := hbeside.depths
  trace := by
    obtain ⟨events, hfirst, hsecond⟩ := hbeside.trace
    exact ⟨events ++ [event], by simp [Store.log, hfirst], by simp [Store.log, hsecond]⟩

theorem note (hbeside : Beside depths past past' first second) (tag : Term) :
    Beside depths past past' { first with notes := first.notes.push tag }
      { second with notes := second.notes.push tag } where
  frames := hbeside.frames
  closures := hbeside.closures
  notes := congrArg (Array.push · tag) hbeside.notes
  depths := hbeside.depths
  trace := hbeside.trace

theorem define (hbeside : Beside depths past past' first second) (frame : FrameId) (name : String)
    (value : Term) :
    Beside depths past past' (first.define frame name value) (second.define frame name value) where
  frames := by rw [Store.define, Store.define, hbeside.frames]
  closures := hbeside.closures
  notes := hbeside.notes
  depths := hbeside.depths
  trace := hbeside.trace

theorem push (hbeside : Beside depths past past' first second) (frame : Frame) :
    Beside depths past past' (first.push frame).1 (second.push frame).1 where
  frames := congrArg (Array.push · frame) hbeside.frames
  closures := hbeside.closures
  notes := hbeside.notes
  depths := hbeside.depths
  trace := hbeside.trace

theorem create (hbeside : Beside depths past past' first second) :
    Beside depths past past' { first with closures := first.closures + 1 }
      { second with closures := second.closures + 1 } where
  frames := hbeside.frames
  closures := congrArg (· + 1) hbeside.closures
  notes := hbeside.notes
  depths := hbeside.depths
  trace := hbeside.trace

theorem setCallbackDepth (hbeside : Beside depths past past' first second)
    {depths' : List Nat → List Nat → Prop} {evaluator : EvaluatorId} {depth depth' : Nat}
    (hdepths : depths' (setDepth first.callbackDepths evaluator depth)
      (setDepth second.callbackDepths evaluator depth')) :
    Beside depths' past past' (first.setCallbackDepth evaluator depth)
      (second.setCallbackDepth evaluator depth') where
  frames := hbeside.frames
  closures := hbeside.closures
  notes := hbeside.notes
  depths := hdepths
  trace := hbeside.trace

end Beside

end Store

/-! ## Operations that do not see callback depths -/

namespace Run

open Store

abbrev Same (R : Store → Store → Prop) (run other : Run α) (first second : Store) : Prop :=
  InStep R (fun _ => Eq) run other first second

section Operations

variable {depths : List Nat → List Nat → Prop} {past past' : List Event} {first second : Store}

theorem same_log (hstores : Beside depths past past' first second) (event : Event) :
    Same (Beside depths past past') (Run.log event) (Run.log event) first second :=
  .of_eq rfl rfl (.ok rfl) (hstores.log event) (Resumes.log first event).toLater

theorem same_note (hstores : Beside depths past past' first second) (tag : Term) :
    Same (Beside depths past past')
      (modify fun store => { store with notes := store.notes.push tag })
      (modify fun store => { store with notes := store.notes.push tag }) first second :=
  .of_eq rfl rfl (.ok rfl) (hstores.note tag) (.of_frames_eq rfl ⟨[], (List.append_nil _).symm⟩)

theorem same_lookup (hstores : Beside depths past past' first second) (frame : FrameId)
    (name : String) :
    Same (Beside depths past past') (Run.lookup frame name) (Run.lookup frame name) first
      second := by
  apply inStep_get
  rw [lookup?_of_frames_eq hstores.frames]
  split
  · exact inStep_pure hstores rfl
  · exact inStep_fail hstores _

theorem same_find (hstores : Beside depths past past' first second) (frame : FrameId)
    (name : String) :
    Same (Beside depths past past') (Run.find frame name) (Run.find frame name) first second := by
  apply inStep_get
  rw [find?_of_frames_eq hstores.frames]
  split
  · exact inStep_pure hstores rfl
  · exact inStep_fail hstores _

theorem same_define (hstores : Beside depths past past' first second) (frame : FrameId)
    (name : String) (value : Term) :
    Same (Beside depths past past') (Run.define frame name value) (Run.define frame name value)
      first second :=
  .of_eq rfl rfl (.ok rfl) (hstores.define frame name value)
    (Resumes.define first frame name value).toLater

theorem same_assign (hstores : Beside depths past past' first second) (frame : FrameId)
    (name : String) (value : Term) :
    Same (Beside depths past past') (Run.assign frame name value) (Run.assign frame name value)
      first second := by
  apply inStep_get
  rw [Store.assign?, Store.assign?, find?_of_frames_eq hstores.frames]
  cases second.find? frame name with
  | none => exact inStep_fail hstores _
  | some found =>
      exact .of_eq rfl rfl (.ok rfl) (hstores.define found name value)
        (Resumes.define first found name value).toLater

theorem same_extend (hstores : Beside depths past past' first second) (parent : Option FrameId)
    (names : List String) (values : List Term) :
    Same (Beside depths past past') (Run.extend parent names values)
      (Run.extend parent names values) first second := by
  unfold Run.extend
  split_ifs
  · exact inStep_fail hstores _
  · have hsize : first.frames.size = second.frames.size := by rw [hstores.frames]
    exact .of_eq rfl rfl (.ok hsize) (hstores.push _) (Resumes.push first _).toLater

theorem same_enter (hstores : Beside depths past past' first second) (params : List String)
    (home : FrameId) (arguments : List Term) :
    Same (Beside depths past past') (Run.enter params home arguments)
      (Run.enter params home arguments) first second := by
  unfold Run.enter
  split_ifs
  · exact inStep_fail hstores _
  · apply (same_extend hstores (some home) params arguments).bind
    rintro frame _ after after' hafter _ rfl
    apply (same_log hafter (.frameEntered params)).bind
    intro _ _ last last' hlast _ _
    exact inStep_pure hlast rfl

theorem same_close (hstores : Beside depths past past' first second) (params : List String)
    (body : Term) (home : FrameId) (owner : Option EvaluatorId) :
    Same (Beside depths past past') (Machine.close params body home owner)
      (Machine.close params body home owner) first second := by
  have hvalue : Term.closure first.closures params body home owner =
      .closure second.closures params body home owner := by rw [hstores.closures]
  exact .of_eq rfl rfl (.ok hvalue) (hstores.create.log (.closureCreated params))
    (.of_frames_eq rfl ⟨[.closureCreated params], by simp [Store.log]⟩)

theorem same_refuse (hstores : Beside depths past past' first second) (value : Term) :
    Same (Beside depths past past') (Machine.refuse value) (Machine.refuse value) first
      second := by
  apply inStep_get
  rw [display?_of_frames_eq hstores.frames]
  exact inStep_fail hstores _

theorem same_nameOf (hstores : Beside depths past past' first second) (term : Term) :
    Same (Beside depths past past') (Run.nameOf term) (Run.nameOf term) first second := by
  unfold Run.nameOf
  split
  · exact inStep_pure hstores rfl
  · apply inStep_get
    rw [display?_of_frames_eq hstores.frames]
    exact inStep_fail hstores _

theorem same_newName (hstores : Beside depths past past' first second) (term : Term) :
    Same (Beside depths past past') (Run.newName term) (Run.newName term) first second := by
  unfold Run.newName
  split
  · exact inStep_pure hstores rfl
  · exact inStep_fail hstores _

theorem same_itemsOf (hstores : Beside depths past past' first second) (term : Term) :
    Same (Beside depths past past') (Run.itemsOf term) (Run.itemsOf term) first second := by
  unfold Run.itemsOf
  split
  · exact inStep_pure hstores rfl
  · exact inStep_fail hstores _

theorem same_mapM {R : Store → Store → Prop} {f g : α → Run β} {items : List α}
    (hstores : R first second)
    (hf : ∀ item after after', R after after' → Same R (f item) (g item) after after') :
    Same R (items.mapM f) (items.mapM g) first second := by
  induction items generalizing first second with
  | nil => exact inStep_pure hstores rfl
  | cons item rest ih =>
      rw [List.mapM_cons, List.mapM_cons]
      apply (hf item first second hstores).bind
      rintro value _ after after' hafter _ rfl
      apply (ih hafter).bind
      rintro values _ last last' hlast _ rfl
      exact inStep_pure hlast rfl

theorem same_foldlM {R : Store → Store → Prop} {f g : β → α → Run β} {items : List α}
    {start : β} (hstores : R first second)
    (hf : ∀ value item after after', R after after' →
      Same R (f value item) (g value item) after after') :
    Same R (items.foldlM f start) (items.foldlM g start) first second := by
  induction items generalizing first second start with
  | nil => exact inStep_pure hstores rfl
  | cons item rest ih =>
      rw [List.foldlM_cons, List.foldlM_cons]
      apply (hf start item first second hstores).bind
      rintro value _ after after' hafter _ rfl
      exact ih hafter

theorem same_extendBy (hstores : Beside depths past past' first second) (frame : FrameId)
    (names values : Term) :
    Same (Beside depths past past') (Run.extendBy frame names values)
      (Run.extendBy frame names values) first second := by
  apply (same_itemsOf hstores names).bind
  rintro names _ after after' hafter _ rfl
  apply (same_itemsOf hafter values).bind
  rintro values _ last last' hlast _ rfl
  split_ifs
  · exact inStep_fail hlast _
  · apply (same_mapM hlast fun item _ _ hstores' => same_newName hstores' item).bind
    rintro names _ store store' hstores' _ rfl
    apply (same_extend hstores' (some frame) names values).map
    rintro _ inner _ rfl
    rfl

theorem same_isBound (hstores : Beside depths past past' first second) (frame : FrameId)
    (term : Term) :
    Same (Beside depths past past') (Run.isBound frame term) (Run.isBound frame term) first
      second := by
  unfold Run.isBound
  split
  · apply inStep_get
    rw [isBound_eq_isSome_find?, isBound_eq_isSome_find?, find?_of_frames_eq hstores.frames]
    exact inStep_pure hstores rfl
  · split_ifs
    · exact inStep_pure hstores rfl
    · exact inStep_fail hstores _

theorem same_bindArguments (hstores : Beside depths past past' first second)
    (params : List String) (home : FrameId) (arguments : List Term) :
    Same (Beside depths past past') (Run.bindArguments params home arguments)
      (Run.bindArguments params home arguments) first second := by
  unfold Run.bindArguments
  split
  · apply (same_itemsOf hstores _).bind
    rintro items _ after after' hafter _ rfl
    apply (same_enter hafter params home items).map
    rintro _ frame _ rfl
    rfl
  · exact inStep_fail hstores _

theorem same_callScope (hstores : Beside depths past past' first second) (frame : FrameId)
    (method : ScopeMethod) (arguments : List Term) :
    Same (Beside depths past past') (Run.callScope frame method arguments)
      (Run.callScope frame method arguments) first second := by
  unfold Run.callScope
  split
  · apply inStep_get
    rw [chain_congr (parent?_congr hstores.frames.symm)]
    exact inStep_pure hstores rfl
  · exact same_extendBy hstores frame _ _
  · apply (same_nameOf hstores _).bind
    rintro name _ after after' hafter _ rfl
    apply (same_find hafter frame name).map
    rintro _ found _ rfl
    rfl
  · apply (same_nameOf hstores _).bind
    rintro name _ after after' hafter _ rfl
    exact same_lookup hafter frame name
  · apply (same_newName hstores _).bind
    rintro name _ after after' hafter _ rfl
    exact same_define hafter frame name _
  · apply (same_nameOf hstores _).bind
    rintro name _ after after' hafter _ rfl
    exact same_assign hafter frame name _
  · exact same_isBound hstores frame _
  · apply inStep_get
    rw [snapshot_of_frames_eq hstores.frames]
    exact inStep_pure hstores rfl
  · exact inStep_fail hstores _

end Operations

end Run

/-! ## Nestings -/

/-- What is known of two evaluations at each place in the nesting of host applications. -/
structure Nesting (ι : Type) where
  /-- How the callback depths compare. -/
  depths : ι → List Nat → List Nat → Prop
  /-- The place inside of a host application by an evaluator at a depth. -/
  inside : ι → EvaluatorId → Nat → ι
  /-- Whether host code runs there. -/
  hosted : ι → Prop
  /-- Whether an evaluator may go on at a depth. -/
  runs : ι → EvaluatorId → Nat → Prop
  /-- What the traces began with. -/
  past : List Event
  past' : List Event

namespace Nesting

variable {ι : Type} {N : Nesting ι}

abbrev related (N : Nesting ι) (place : ι) : Store → Store → Prop :=
  Store.Beside (N.depths place) N.past N.past'

def Fits (N : Nesting ι) (place : ι) : Task → Prop
  | .eval evaluator _ _ depth | .apply evaluator _ _ depth => N.runs place evaluator depth
  | .call _ _ => N.hosted place

def within (N : Nesting ι) (place : ι) : Task → ι
  | .apply evaluator (.primitive _) _ depth => N.inside place evaluator depth
  | _ => place

/-- What is known is respected by beginning and ending host applications and by calling back. -/
structure Lawful (N : Nesting ι) : Prop where
  deeper : ∀ {place evaluator depth}, N.runs place evaluator depth →
    N.runs place evaluator (depth + 1)
  hosts : ∀ {place evaluator depth}, N.runs place evaluator depth →
    N.hosted (N.inside place evaluator depth)
  depth : ∀ {place depths depths'}, N.hosted place → N.depths place depths depths' →
    ∀ evaluator, depths.getD evaluator 0 = depths'.getD evaluator 0
  resumes : ∀ {place depths depths'}, N.hosted place → N.depths place depths depths' →
    ∀ evaluator, N.runs place evaluator (depths.getD evaluator 0)
  enter : ∀ {place evaluator depth depths depths'}, N.runs place evaluator depth →
    N.depths place depths depths' → N.depths (N.inside place evaluator depth)
      (setDepth depths evaluator depth) (setDepth depths' evaluator depth)
  leave : ∀ {place evaluator depth depths depths' inner inner'}, N.runs place evaluator depth →
    N.depths place depths depths' → N.depths (N.inside place evaluator depth) inner inner' →
      N.depths place (setDepth inner evaluator (depths.getD evaluator 0))
        (setDepth inner' evaluator (depths'.getD evaluator 0))

/-- Two ways to run tasks do the same at a place. -/
def Respects (N : Nesting ι) (place : ι) (self other : Task → Run Term) : Prop :=
  ∀ task first second, N.Fits place task → N.related place first second →
    Run.Same (N.related place) (self task) (other task) first second

namespace Lawful

open Run

variable {place : ι} {machine : Machine} {first second : Store}

theorem same_atCallbackDepth (law : N.Lawful) {evaluator : EvaluatorId} {depth : Nat}
    (hruns : N.runs place evaluator depth) (hstores : N.related place first second)
    {run other : Run α}
    (hsame : Same (N.related (N.inside place evaluator depth)) run other
      (first.setCallbackDepth evaluator depth) (second.setCallbackDepth evaluator depth)) :
    Same (N.related place) (Run.atCallbackDepth evaluator depth run)
      (Run.atCallbackDepth evaluator depth other) first second where
  outcome := hsame.outcome
  related := hsame.related.setCallbackDepth
    (law.leave hruns hstores.depths hsame.related.depths)
  later := by
    have hbegun := Store.Later.setCallbackDepth first evaluator depth
    exact hbegun.trans (hsame.later.trans (.setCallbackDepth _ _ _))

section Steps

variable {self other : Task → Run Term}

theorem same_applyCore (law : N.Lawful) (hhosted : N.hosted place)
    (hstores : N.related place first second) (operation : CorePrimitive) (operands : List Term) :
    Same (N.related place) (machine.applyCore operation operands)
      (machine.applyCore operation operands) first second := by
  have hopened : machine.opened first = machine.opened second := by
    funext term
    cases term with
    | scope frame =>
        rw [Machine.opened, Machine.opened, Store.scopeAttributes_of_frames_eq hstores.frames]
    | evaluator evaluator =>
        rw [Machine.opened, Machine.opened, Machine.evaluatorAttributes,
          Machine.evaluatorAttributes, Store.callbackDepth, Store.callbackDepth,
          law.depth hhosted hstores.depths]
    | _ => rfl
  apply inStep_get
  rw [hopened]
  exact inStep_ofExcept hstores (.refl (fun _ => rfl) _)

theorem same_callEvaluator (law : N.Lawful) (hself : Respects N place self other)
    (hhosted : N.hosted place) (hstores : N.related place first second) (evaluator : EvaluatorId)
    (method : EvaluatorMethod) (arguments : List Term) :
    Same (N.related place) (Machine.callEvaluator self evaluator method arguments)
      (Machine.callEvaluator other evaluator method arguments) first second := by
  have hdepth : first.callbackDepth evaluator = second.callbackDepth evaluator :=
    law.depth hhosted hstores.depths evaluator
  have hruns : N.runs place evaluator (second.callbackDepth evaluator) :=
    hdepth ▸ law.resumes hhosted hstores.depths evaluator
  unfold Machine.callEvaluator
  split
  · apply inStep_get
    rw [hdepth]
    split
    · exact hself _ _ _ hruns hstores
    · split_ifs
      · exact inStep_fail hstores _
      · exact inStep_pure hstores rfl
  · split_ifs
    · apply inStep_get
      rw [hdepth]
      apply (same_itemsOf hstores _).bind
      rintro items _ after after' hafter _ rfl
      exact hself _ _ _ hruns hafter
    · exact same_refuse hstores _
  · exact inStep_fail hstores _

theorem same_ofProgram (hself : Respects N place self other) (hhosted : N.hosted place)
    (hstores : N.related place first second) (program : HostProgram) :
    Same (N.related place) (Run.ofProgram (fun callee arguments => self (.call callee arguments)) program)
      (Run.ofProgram (fun callee arguments => other (.call callee arguments)) program) first
      second := by
  induction program generalizing first second with
  | done outcome => exact inStep_ofExcept hstores (.refl (fun _ => rfl) _)
  | call callee arguments next ih =>
      apply (hself (.call callee arguments) _ _ hhosted hstores).observe.bind
      intro outcome outcome' after after' hafter _ houtcome
      obtain rfl := houtcome.eq
      exact ih outcome hafter
  | note tag next ih =>
      apply (same_note hstores tag).bind
      intro _ _ after after' hafter _ _
      exact ih hafter

theorem same_applyPrimitive (law : N.Lawful) (hself : Respects N place self other)
    (hhosted : N.hosted place) (hstores : N.related place first second) (callable : Primitive)
    (arguments : List Term) :
    Same (N.related place) (machine.applyPrimitive self callable arguments)
      (machine.applyPrimitive other callable arguments) first second := by
  cases callable with
  | core operation => exact law.same_applyCore hhosted hstores operation arguments
  | host name => exact same_ofProgram hself hhosted hstores _
  | method method =>
      cases method with
      | scope method frame => exact same_callScope hstores frame method arguments
      | evaluator method evaluator =>
          exact law.same_callEvaluator hself hhosted hstores evaluator method arguments
      | bind _ params home => exact same_bindArguments hstores params home arguments

theorem same_stepNode (law : N.Lawful) (hself : Respects N place self other)
    {evaluator : EvaluatorId} {depth : Nat} (hruns : N.runs place evaluator depth)
    (hstores : N.related place first second) (frame : FrameId) (term : Term) :
    Same (N.related place) (Machine.stepNode self evaluator frame depth term)
      (Machine.stepNode other evaluator frame depth term) first second := by
  have hdeeper := law.deeper hruns
  have hpart : ∀ part first second, N.related place first second →
      Same (N.related place) (self (.eval evaluator part frame (depth + 1)))
        (other (.eval evaluator part frame (depth + 1))) first second :=
    fun part first second => hself (.eval evaluator part frame (depth + 1)) first second hdeeper
  cases term with
  | «variable» name => exact same_lookup hstores frame name
  | quoted value => exact inStep_pure hstores rfl
  | assignment target value =>
      apply (hpart value _ _ hstores).bind
      rintro value _ after after' hafter _ rfl
      exact same_assign hafter frame target value
  | definition target value =>
      apply (hpart value _ _ hstores).bind
      rintro value _ after after' hafter _ rfl
      exact same_define hafter frame target value
  | conditional predicate consequent alternative =>
      apply (hpart predicate _ _ hstores).bind
      rintro condition _ after after' hafter _ rfl
      split_ifs
      · exact hpart consequent _ _ hafter
      · exact hpart alternative _ _ hafter
  | sequence items =>
      exact same_foldlM hstores fun _ item _ _ hafter => hpart item _ _ hafter
  | lambda params body => exact same_close hstores params body frame (some evaluator)
  | application operator operands =>
      apply (hpart operator _ _ hstores).bind
      rintro callee _ after after' hafter _ rfl
      apply (same_mapM hafter fun operand _ _ hstores' => hpart operand _ _ hstores').bind
      rintro arguments _ last last' hlast _ rfl
      exact hself (.apply evaluator callee arguments (depth + 1)) _ _ hdeeper hlast
  | _ => exact inStep_fail hstores _

theorem same_step (law : N.Lawful) {task : Task}
    (hself : Respects N (N.within place task) self other) (hfits : N.Fits place task)
    (hstores : N.related place first second) :
    Same (N.related place) (machine.step self task) (machine.step other task) first second := by
  cases task with
  | eval evaluator term frame depth =>
      rw [Machine.step, Machine.step]
      split_ifs
      · split
        · exact inStep_fail hstores _
        · exact law.same_stepNode hself hfits hstores frame term
      · exact inStep_pure hstores rfl
  | apply evaluator callee arguments depth =>
      unfold Machine.step
      cases callee with
      | closure id params body home owner =>
          apply (same_enter hstores params home arguments).bind
          rintro frame _ after after' hafter _ rfl
          exact hself (.eval evaluator body frame depth) _ _ hfits hafter
      | primitive callable =>
          apply (same_log hstores (.hostApplied callable arguments)).bind
          intro _ _ after after' hafter _ _
          apply law.same_atCallbackDepth hfits hafter
          exact law.same_applyPrimitive hself (law.hosts hfits)
            (hafter.setCallbackDepth (law.enter hfits hafter.depths)) callable arguments
      | _ => exact same_refuse hstores _
  | call callee arguments =>
      -- Calls come from host code, and there all depths are the same.
      have hdepth : ∀ evaluator,
          first.callbackDepth evaluator = second.callbackDepth evaluator :=
        law.depth hfits hstores.depths
      unfold Machine.step
      cases callee with
      | closure id params body home owner =>
          apply inStep_get
          rw [hdepth]
          apply hself _ _ _ _ hstores
          exact hdepth _ ▸ law.resumes hfits hstores.depths _
      | primitive callable => exact law.same_applyPrimitive hself hfits hstores callable arguments
      | _ => exact inStep_fail hstores _

end Steps

theorem same_run (law : N.Lawful) (machine : Machine) (bound : Nat) {task : Task}
    (hfits : N.Fits place task) (hstores : N.related place first second) :
    Same (N.related place) (machine.run bound task) (machine.run bound task) first second := by
  induction bound generalizing place task first second with
  | zero => exact inStep_throw hstores _
  | succ bound ih => exact law.same_step (fun task _ _ => ih) hfits hstores

end Lawful

end Nesting
end Rulebook
