import Rulebook.Proofs.Evaluation.Hosts
import Rulebook.Proofs.Evaluation.Settling

/-!
# Every evaluation ends under limits

A node is one deeper than the node that it is a part of, so that under a limit only finitely many
nodes are nested in each other before a host function is applied.  The host function may call
closures of other evaluators, which go on counting where these evaluators are in their own host
calls.  But applying it has taken its own evaluator deeper, for as long as the host call lasts.  So
the room that all evaluators have left, taken together, gets smaller from one host call to those
inside of it.
-/

namespace Rulebook
namespace Machine

/-- How far an evaluator is from its limit, as long as it is inside a host call. -/
def room (machine : Machine) (store : Store) (evaluator : EvaluatorId) : Nat :=
  match machine.limit evaluator with
  | some limit => (limit + 2 - store.callbackDepth evaluator).toNat
  | none => 0

def totalRoom (machine : Machine) (evaluators : List EvaluatorId) (store : Store) : Nat :=
  (evaluators.map (machine.room store)).sum

variable {machine : Machine} {evaluators : List EvaluatorId}

theorem totalRoom_congr {before after : Store}
    (hdepth : ∀ evaluator, after.callbackDepth evaluator = before.callbackDepth evaluator) :
    machine.totalRoom evaluators after = machine.totalRoom evaluators before := by
  have hroom : machine.room after = machine.room before := by
    funext evaluator
    rw [room, room, hdepth]
  rw [totalRoom, totalRoom, hroom]

theorem room_setCallbackDepth_of_ne {evaluator other : EvaluatorId} (hne : other ≠ evaluator)
    (store : Store) (depth : Nat) :
    machine.room (store.setCallbackDepth evaluator depth) other = machine.room store other := by
  rw [room, room, Store.callbackDepth_setCallbackDepth, if_neg hne]

theorem room_setCallbackDepth_lt {evaluator : EvaluatorId} {limit : Int} {store : Store}
    {depth : Nat} (hlimit : machine.limit evaluator = some limit)
    (hdeeper : store.callbackDepth evaluator < depth) (hdepth : depth ≤ limit + 1) :
    machine.room (store.setCallbackDepth evaluator depth) evaluator <
      machine.room store evaluator := by
  simp only [room, hlimit, Store.callbackDepth_setCallbackDepth, if_true]
  omega

theorem totalRoom_setCallbackDepth_lt {evaluator : EvaluatorId} {limit : Int} {store : Store}
    {depth : Nat} (hmem : evaluator ∈ evaluators) (hlimit : machine.limit evaluator = some limit)
    (hdeeper : store.callbackDepth evaluator < depth) (hdepth : depth ≤ limit + 1) :
    machine.totalRoom evaluators (store.setCallbackDepth evaluator depth) <
      machine.totalRoom evaluators store := by
  have hlt := room_setCallbackDepth_lt hlimit hdeeper hdepth
  apply List.sum_lt_sum
  · intro other _
    by_cases hother : other = evaluator
    · rw [hother]
      exact Nat.le_of_lt hlt
    · exact Nat.le_of_eq (room_setCallbackDepth_of_ne hother store depth)
  · exact ⟨evaluator, hmem, hlt⟩

end Machine

namespace Discipline

/-- A discipline under which only evaluators with limits run, and host functions call each other
directly only finitely often. -/
structure Limited (D : Discipline) (machine : Machine) (evaluators : List EvaluatorId) : Prop where
  lawful : D.Lawful machine
  permits : D.permits = fun _ _ => true
  allowed : ∀ store callable arguments, D.allowed store callable arguments
  runs : ∀ {evaluator}, D.runs evaluator → evaluator ∈ evaluators
  limit : ∀ {evaluator}, evaluator ∈ evaluators → ∃ limit, machine.limit evaluator = some limit
  calls : WellFounded machine.host.Calls

namespace Limited

open Run

variable {D : Discipline} {machine : Machine} {evaluators : List EvaluatorId} {store : Store}

theorem agree_run (hlimited : D.Limited machine evaluators) {first second : Store}
    (hstores : D.related first second) {task : Task} (hfits : D.Fits first task) (bound : Nat) :
    D.Agrees D.Holds (machine.run bound task) first second :=
  hlimited.lawful.agree_run hlimited.permits hstores hfits

theorem keeps {good : Store → α → Prop} {run : Run α} (hagree : D.Agrees good run store store)
    {value : α} {after : Store} (hrun : run store = (.ok value, after)) :
    D.related after after ∧ Store.Resumes store after ∧ good after value := by
  have hrelated := hagree.related
  have hresumes := hagree.resumes
  have hgood := hagree.good value
  rw [hrun] at hrelated hresumes hgood
  exact ⟨hrelated, hresumes, hgood rfl⟩

/-! ## Nodes -/

/-- An application settles if the body of the closure does, in whatever frame. -/
theorem settles_closure (hlimited : D.Limited machine evaluators) (hstore : D.related store store)
    {evaluator : EvaluatorId} {id : Nat} {params : List String} {body : Term} {home : FrameId}
    {owner : Option EvaluatorId} {arguments : List Term} {depth : Nat}
    (hfits : D.Fits store (.apply evaluator (.closure id params body home owner) arguments depth))
    (hbody : ∀ {after frame}, D.related after after → Store.Resumes store after →
      D.Fits after (.eval evaluator body frame depth) →
        Settles (fun bound => machine.run bound (.eval evaluator body frame depth)) after) :
    Settles (fun bound => machine.run bound
      (.apply evaluator (.closure id params body home owner) arguments depth)) store := by
  apply Settles.of_succ
  have henter := (Ends.enter params home arguments).settles store
  apply henter.bind
  intro _ frame after hframe
  obtain ⟨hafter, hresumes, hfits'⟩ :=
    keeps (hlimited.lawful.agree_enter_fits hstore hfits) hframe
  exact hbody hafter hresumes hfits'

theorem hostCall (hlimited : D.Limited machine evaluators) (hstore : D.related store store)
    (event : Event) (evaluator : EvaluatorId) (depth : Nat) :
    D.related ((store.log event).setCallbackDepth evaluator depth)
        ((store.log event).setCallbackDepth evaluator depth) ∧
      Store.Later store ((store.log event).setCallbackDepth evaluator depth) := by
  have hframing := hlimited.lawful.framing
  constructor
  · exact hframing.setCallbackDepth (hframing.log hstore event) evaluator depth
  · exact (Store.Resumes.log store event).toLater.trans (.setCallbackDepth _ evaluator depth)

/-- An application settles if the primitive does inside of the host call. -/
theorem settles_hostCall {evaluator : EvaluatorId} {callable : Primitive} {arguments : List Term}
    {depth : Nat}
    (hprimitive : Settles
      (fun bound => machine.applyPrimitive (machine.run bound) callable arguments)
      ((store.log (.hostApplied callable arguments)).setCallbackDepth evaluator depth)) :
    Settles (fun bound => machine.run bound
      (.apply evaluator (.primitive callable) arguments depth)) store := by
  apply Settles.of_succ
  have hlog : Ends (Run.log (.hostApplied callable arguments)) := by
    rintro store ⟨⟩
  apply (hlog.settles store).bind
  rintro _ _ after ⟨⟩
  exact hprimitive.atCallbackDepth

/-- Operands settle one after another, each in the store that those before it have left, and what
follows settles if it does at whatever values they have. -/
theorem settles_operands (hlimited : D.Limited machine evaluators) (hstore : D.related store store)
    {evaluator : EvaluatorId} {operands : List Term} {frame : FrameId} {depth : Nat}
    {next : Nat → List Term → Run Term}
    (hfits : ∀ operand ∈ operands, ∀ {after}, Store.Resumes store after →
      D.Fits after (.eval evaluator operand frame depth))
    (heval : ∀ operand ∈ operands, ∀ {after}, D.related after after → Store.Resumes store after →
      Settles (fun bound => machine.run bound (.eval evaluator operand frame depth)) after)
    (hnext : ∀ {values after}, D.related after after → Store.Resumes store after →
      (∀ value ∈ values, D.Holds after value) → Settles (fun bound => next bound values) after) :
    Settles (fun bound => do
      let values ← operands.mapM fun operand =>
        machine.run bound (.eval evaluator operand frame depth)
      next bound values) store := by
  have hsettles : Settles (fun bound => operands.mapM fun operand =>
      machine.run bound (.eval evaluator operand frame depth)) store := by
    apply Settles.mapM (fun after => D.related after after ∧ Store.Resumes store after)
      ⟨hstore, .refl store⟩
    · rintro operand hoperand after ⟨hafter, hresumes⟩
      exact heval operand hoperand hafter hresumes
    · rintro operand hoperand bound value after later ⟨hafter, hresumes⟩ hvalue
      have hagree := hlimited.agree_run hafter (hfits operand hoperand hresumes) bound
      obtain ⟨hlater, hresumes', _⟩ := keeps hagree hvalue
      exact ⟨hlater, hresumes.trans hresumes'⟩
  apply hsettles.bind
  intro bound values after hvalues
  have hagree : D.Agrees (fun store values => ∀ value ∈ values, D.Holds store value)
      (operands.mapM fun operand => machine.run bound (.eval evaluator operand frame depth))
      store store := by
    apply Run.agree_mapM hstore hlimited.lawful.stays.lasts
    intro operand hoperand later later' hlater hresumes
    exact hlimited.agree_run hlater (hfits operand hoperand hresumes) bound
  obtain ⟨hafter, hresumes, hheld⟩ := keeps hagree hvalues
  exact hnext hafter hresumes hheld

theorem settles_stepNode (hlimited : D.Limited machine evaluators) (hstore : D.related store store)
    {evaluator : EvaluatorId} {term : Term} {frame : FrameId} {depth : Nat}
    (hfits : D.Fits store (.eval evaluator term frame depth))
    (heval : ∀ {after part}, D.related after after → Store.Resumes store after →
      D.Fits after (.eval evaluator part frame (depth + 1)) →
        Settles (fun bound => machine.run bound (.eval evaluator part frame (depth + 1))) after)
    (happly : ∀ {after callee arguments}, D.related after after → Store.Resumes store after →
      D.Fits after (.apply evaluator callee arguments (depth + 1)) →
        Settles (fun bound => machine.run bound (.apply evaluator callee arguments (depth + 1)))
          after) :
    Settles (fun bound => Machine.stepNode (machine.run bound) evaluator frame depth term)
      store := by
  have hpart : ∀ {kind part}, term.kind? = some kind → kind ≠ .quoted → part ∈ term.contents →
      ∀ {after}, Store.Resumes store after →
        D.Fits after (.eval evaluator part frame (depth + 1)) :=
    fun hkind hquoted hpart _ hresumes =>
      hlimited.lawful.fits_part hfits hkind hquoted hpart hresumes.toLater (depth + 1)
  cases term with
  | «variable» name => exact (Ends.lookup frame name).settles store
  | quoted value => exact (Ends.pure value).settles store
  | assignment target value =>
      have hvalue := hpart rfl (by simp) List.mem_cons_self (.refl store)
      apply (heval hstore (.refl store) hvalue).bind
      exact fun _ result after _ => (Ends.assign frame target result).settles after
  | definition target value =>
      have hvalue := hpart rfl (by simp) List.mem_cons_self (.refl store)
      apply (heval hstore (.refl store) hvalue).bind
      exact fun _ result after _ => (Ends.define frame target result).settles after
  | conditional p c a =>
      have hp : D.Fits store (.eval evaluator p frame (depth + 1)) :=
        hpart rfl (by simp) (by simp [Term.contents]) (.refl store)
      apply (heval hstore (.refl store) hp).bind
      intro bound condition after hcondition
      obtain ⟨hafter, hresumes, _⟩ := keeps (hlimited.agree_run hstore hp bound) hcondition
      split_ifs
      · exact heval hafter hresumes (hpart rfl (by simp) (by simp [Term.contents]) hresumes)
      · exact heval hafter hresumes (hpart rfl (by simp) (by simp [Term.contents]) hresumes)
  | sequence items =>
      apply Settles.foldlM (fun after => D.related after after ∧ Store.Resumes store after)
        ⟨hstore, .refl store⟩
      · rintro item hitem _ after ⟨hafter, hresumes⟩
        exact heval hafter hresumes (hpart rfl (by simp) hitem hresumes)
      · rintro item hitem bound _ value after next ⟨hafter, hresumes⟩ hvalue
        have hfits' := hpart rfl (by simp) hitem hresumes
        obtain ⟨hnext, hresumes', _⟩ := keeps (hlimited.agree_run hafter hfits' bound) hvalue
        exact ⟨hnext, hresumes.trans hresumes'⟩
  | lambda params body => exact (Ends.close params body frame (some evaluator)).settles store
  | application operator operands =>
      have hoperator := hpart rfl (by simp) List.mem_cons_self (.refl store)
      apply (heval hstore (.refl store) hoperator).bind
      intro bound callee middle hcallee
      obtain ⟨hmiddle, hresumes, hheld⟩ := keeps (hlimited.agree_run hstore hoperator bound) hcallee
      have hoperands : ∀ operand ∈ operands, ∀ {after}, Store.Resumes middle after →
          D.Fits after (.eval evaluator operand frame (depth + 1)) :=
        fun operand hoperand _ hresumes' =>
          hpart rfl (by simp) (List.mem_cons_of_mem operator hoperand) (hresumes.trans hresumes')
      apply hlimited.settles_operands hmiddle hoperands
      · intro operand hoperand after hafter hresumes'
        exact heval hafter (hresumes.trans hresumes') (hoperands operand hoperand hresumes')
      · intro arguments after hafter hresumes' hheld'
        exact happly hafter (hresumes.trans hresumes')
          ⟨hfits.1, hlimited.lawful.stays.holds hresumes'.toLater hheld, hheld'⟩
  | _ => exact (Ends.fail _).settles store

theorem settles_of_node {evaluator : EvaluatorId} {limit : Int}
    (hlimit : machine.limit evaluator = some limit) {term : Term} {frame : FrameId} {depth : Nat}
    (hnode : depth ≤ limit → Settles
      (fun bound => Machine.stepNode (machine.run bound) evaluator frame depth term) store) :
    Settles (fun bound => machine.run bound (.eval evaluator term frame depth)) store := by
  apply Settles.of_succ
  by_cases hdepth : depth ≤ limit
  · have hexceeds : machine.exceeds evaluator depth = none := by
      simpa [Machine.exceeds, hlimit] using hdepth
    simp only [Machine.run, Machine.step, hexceeds]
    split_ifs
    · exact hnode hdepth
    · exact (Ends.pure term).settles store
  · have hexceeds : machine.exceeds evaluator depth = some limit := by
      simpa [Machine.exceeds, hlimit] using hdepth
    simp only [Machine.run, Machine.step, hexceeds]
    split_ifs
    · exact (Ends.fail _).settles store
    · exact (Ends.pure term).settles store

/-- A primitive settles at arguments wherever there is so much room. -/
def SettlesAt (D : Discipline) (machine : Machine) (evaluators : List EvaluatorId) (total : Nat)
    (call : Primitive × List Term) : Prop :=
  ∀ {store}, D.related store store → machine.totalRoom evaluators store = total →
    D.Holds store (.primitive call.1) → (∀ operand ∈ call.2, D.Holds store operand) →
      Settles (fun bound => machine.applyPrimitive (machine.run bound) call.1 call.2) store

def SettlesBelow (D : Discipline) (machine : Machine) (evaluators : List EvaluatorId)
    (total : Nat) : Prop :=
  ∀ less, less < total → ∀ call, SettlesAt D machine evaluators less call

/-- Where primitives settle when there is less room, everything that is evaluated settles. -/
theorem settles_eval (hlimited : D.Limited machine evaluators) {total : Nat}
    (hbelow : SettlesBelow D machine evaluators total)
    {store : Store} {evaluator : EvaluatorId} {term : Term} {frame : FrameId} {depth : Nat}
    (hstore : D.related store store) (htotal : machine.totalRoom evaluators store = total)
    (hfits : D.Fits store (.eval evaluator term frame depth))
    (hdepth : store.callbackDepth evaluator ≤ depth) :
    Settles (fun bound => machine.run bound (.eval evaluator term frame depth)) store := by
  obtain ⟨limit, hlimit⟩ := hlimited.limit (hlimited.runs hfits.1)
  -- The induction is on how many nodes may still be nested.
  have hrank : ∃ rank : Nat, limit + 1 ≤ depth + rank := ⟨(limit + 1 - depth).toNat, by omega⟩
  obtain ⟨rank, hrank⟩ := hrank
  induction rank generalizing store term frame depth with
  | zero =>
      apply settles_of_node hlimit
      intro hle
      omega
  | succ rank ih =>
      apply settles_of_node hlimit
      intro hle
      have heval : ∀ {after part inner}, D.related after after → Store.Resumes store after →
          D.Fits after (.eval evaluator part inner (depth + 1)) →
            Settles (fun bound => machine.run bound (.eval evaluator part inner (depth + 1)))
              after := by
        intro after part inner hafter hresumes hpart
        have hdeeper : after.callbackDepth evaluator ≤ depth + 1 := by
          rw [hresumes.depth]
          omega
        apply ih hafter _ hpart hdeeper (by omega)
        rw [Machine.totalRoom_congr hresumes.depth, htotal]
      apply hlimited.settles_stepNode hstore hfits heval
      intro after callee arguments hafter hresumes happlied
      cases callee with
      | closure id params body home owner =>
          apply hlimited.settles_closure hafter happlied
          exact fun hlater hresumes' hbody => heval hlater (hresumes.trans hresumes') hbody
      | primitive callable =>
          apply settles_hostCall
          obtain ⟨hinside, hlater⟩ := hlimited.hostCall hafter (.hostApplied callable arguments)
            evaluator (depth + 1)
          have hlogged := (Store.Resumes.log after (.hostApplied callable arguments)).depth
          -- The host call is deeper than the one around it, so there is less room inside.
          have hless : machine.totalRoom evaluators
              ((after.log (.hostApplied callable arguments)).setCallbackDepth evaluator
                (depth + 1)) < total := by
            rw [← htotal, ← Machine.totalRoom_congr hresumes.depth,
              ← Machine.totalRoom_congr hlogged]
            apply Machine.totalRoom_setCallbackDepth_lt (hlimited.runs hfits.1) hlimit
            · rw [hlogged, hresumes.depth]
              omega
            · omega
          exact hbelow _ hless (callable, arguments) hinside rfl
            (hlimited.lawful.stays.holds hlater happlied.2.1)
            (hlimited.lawful.stays.forall_holds hlater happlied.2.2)
      | _ =>
          apply Settles.of_succ
          exact (Ends.refuse _).settles after

/-! ## Primitives -/

theorem itemsOf_eq_ok {term : Term} {items : List Term} {after : Store}
    (hrun : Run.itemsOf term store = (.ok items, after)) :
    term.items? = some items ∧ store = after := by
  rw [Run.itemsOf] at hrun
  cases hitems : term.items? with
  | none =>
      rw [hitems] at hrun
      cases hrun
  | some found =>
      rw [hitems] at hrun
      cases hrun
      exact ⟨rfl, rfl⟩

section Primitives

variable {total : Nat}

/-- A closure that is called where its evaluator is in its host call settles. -/
theorem settles_called (hlimited : D.Limited machine evaluators)
    (hbelow : SettlesBelow D machine evaluators total) (hstore : D.related store store)
    (htotal : machine.totalRoom evaluators store = total) {evaluator : EvaluatorId} {id : Nat}
    {params : List String} {body : Term} {home : FrameId} {owner : Option EvaluatorId}
    {arguments : List Term}
    (hfits : D.Fits store (.apply evaluator (.closure id params body home owner) arguments
      (store.callbackDepth evaluator))) :
    Settles (fun bound => machine.run bound (.apply evaluator (.closure id params body home owner)
      arguments (store.callbackDepth evaluator))) store := by
  apply hlimited.settles_closure hstore hfits
  intro after frame hafter hresumes hbody
  apply hlimited.settles_eval hbelow hafter _ hbody
  · rw [hresumes.depth]
  · rw [Machine.totalRoom_congr hresumes.depth, htotal]

/-- A host program settles if what it calls directly does. -/
theorem settles_ofProgram (hlimited : D.Limited machine evaluators)
    (hbelow : SettlesBelow D machine evaluators total) {program : HostProgram}
    (hdirect : ∀ {callable operands}, program.Makes (.primitive callable) operands →
      SettlesAt D machine evaluators total (callable, operands))
    (hstore : D.related store store) (htotal : machine.totalRoom evaluators store = total)
    (hkeeps : D.Keeps program store) :
    Settles (fun bound => Run.ofProgram
      (fun callee arguments => machine.run bound (.call callee arguments)) program) store := by
  induction program generalizing store with
  | done outcome => exact (Ends.ofExcept outcome).settles store
  | call callee arguments next ih =>
      obtain ⟨hcallee, harguments, hnext⟩ := hkeeps
      have hfits : D.Fits store (.call callee arguments) :=
        ⟨hcallee, harguments, fun _ _ _ => hlimited.allowed _ _ _⟩
      have hcall : Settles (fun bound => machine.run bound (.call callee arguments)) store := by
        apply Settles.of_succ
        cases callee with
        | closure id params body home owner =>
            exact hlimited.settles_called hbelow hstore htotal
              ⟨hcallee.self.2.2, hcallee, harguments⟩
        | primitive callable => exact hdirect (.now next) hstore htotal hcallee harguments
        | _ => exact (Ends.fail _).settles store
      apply hcall.observe.bind
      intro bound outcome after hobserved
      obtain ⟨hafter, hresumes, houtcome⟩ :=
        keeps (hlimited.agree_run hstore hfits bound).observe hobserved
      apply ih outcome (fun hmakes => hdirect (.later outcome hmakes)) hafter
      · rw [Machine.totalRoom_congr hresumes.depth, htotal]
      · exact hnext outcome after hresumes.toLater houtcome
  | note tag next ih =>
      have hnote : Ends (modify fun store : Store =>
          { store with notes := store.notes.push tag } : Run PUnit) := by
        rintro store ⟨⟩
      apply (hnote.settles store).bind
      rintro _ _ after ⟨⟩
      apply ih (fun hmakes => hdirect (.noted hmakes)) (hlimited.lawful.framing.note hstore tag)
        htotal
      exact hkeeps _ (.of_frames_eq rfl ⟨[], (List.append_nil _).symm⟩)

theorem settles_callEvaluator (hlimited : D.Limited machine evaluators)
    (hbelow : SettlesBelow D machine evaluators total) (hstore : D.related store store)
    (htotal : machine.totalRoom evaluators store = total) {evaluator : EvaluatorId}
    {method : EvaluatorMethod} {arguments : List Term}
    (hdirect : ∀ {call},
      machine.host.Calls call (.method (.evaluator method evaluator), arguments) →
        SettlesAt D machine evaluators total call)
    (hruns : D.runs evaluator) (harguments : ∀ argument ∈ arguments, D.Holds store argument) :
    Settles (fun bound => Machine.callEvaluator (machine.run bound) evaluator method arguments)
      store := by
  unfold Machine.callEvaluator
  split
  · rename_i term scope
    apply (Ends.get.settles store).bind
    rintro _ _ after ⟨⟩
    split
    · rename_i frame
      have hopened : D.opened store frame := (harguments (.scope frame) (by simp)).self
      obtain ⟨hhome, hmay⟩ := hlimited.lawful.method
        (hlimited.allowed store (.method (.evaluator .evaluate evaluator)) []) hopened
      exact hlimited.settles_eval hbelow hstore htotal
        ⟨hruns, hhome, harguments term (by simp), fun access _ => hmay access⟩ (Nat.le_refl _)
    · split_ifs
      · exact (Ends.fail _).settles store
      · exact (Ends.pure term).settles store
  · rename_i callee collection
    have hcallee : D.Holds store callee := harguments callee (by simp)
    split_ifs
    · apply (Ends.get.settles store).bind
      rintro _ _ after ⟨⟩
      apply ((Ends.itemsOf collection).settles store).bind
      intro _ items after hrun
      obtain ⟨hitems, rfl⟩ := itemsOf_eq_ok hrun
      have hheld := (D.hereditary store).items (harguments collection (by simp)) hitems
      cases callee with
      | closure id params body home owner =>
          exact hlimited.settles_called hbelow hstore htotal ⟨hruns, hcallee, hheld⟩
      | primitive callable =>
          apply settles_hostCall
          obtain ⟨hinside, hlater⟩ := hlimited.hostCall hstore (.hostApplied callable items)
            evaluator (store.callbackDepth evaluator)
          -- The depth is the one that the evaluator is at already, and leaves as much room.
          apply hdirect (.apply hitems) hinside
          · rw [← htotal]
            apply Machine.totalRoom_congr
            intro other
            rw [Store.callbackDepth_setCallbackDepth]
            split_ifs with hother
            · rw [hother]
            · rfl
          · exact hlimited.lawful.stays.holds hlater hcallee
          · exact hlimited.lawful.stays.forall_holds hlater hheld
      | _ =>
          apply Settles.of_succ
          exact (Ends.refuse _).settles store
    · exact (Ends.refuse _).settles store
  · exact (Ends.fail _).settles store

/-- Primitives settle, by induction on the room that is left and on their direct calls. -/
theorem settlesAt (hlimited : D.Limited machine evaluators) (total : Nat)
    (call : Primitive × List Term) : SettlesAt D machine evaluators total call := by
  induction total using Nat.strong_induction_on generalizing call with
  | _ total ihtotal =>
      have hbelow : SettlesBelow D machine evaluators total := fun less hless => ihtotal less hless
      induction call using hlimited.calls.induction with
      | _ call ih =>
          obtain ⟨callable, arguments⟩ := call
          intro store hstore htotal hcallable harguments
          cases callable with
          | core operation => exact (Ends.applyCore machine operation arguments).settles store
          | host name =>
              have hkeeps := hlimited.lawful.host
                (hlimited.allowed store (.host name) arguments) harguments
              exact hlimited.settles_ofProgram hbelow (fun hmakes => ih _ (.host hmakes)) hstore
                htotal hkeeps
          | method method =>
              cases method with
              | scope method frame =>
                  exact (Ends.callScope frame method arguments).settles store
              | evaluator method evaluator =>
                  exact hlimited.settles_callEvaluator hbelow hstore htotal
                    (fun hcalls => ih _ hcalls) hcallable.self harguments
              | bind id params home =>
                  exact (Ends.bindArguments params home arguments).settles store

end Primitives

theorem settles_evaluate (hlimited : D.Limited machine evaluators)
    (hstore : D.related store store) {evaluator : EvaluatorId} {term : Term} {frame : FrameId}
    (hfits : ∀ depth, D.Fits store (.eval evaluator term frame depth)) :
    Settles (fun bound => machine.evaluate bound evaluator term frame) store :=
  hlimited.settles_eval (fun less _ => hlimited.settlesAt less) hstore rfl (hfits _) (Nat.le_refl _)

theorem settles_apply (hlimited : D.Limited machine evaluators)
    (hstore : D.related store store) {evaluator : EvaluatorId} {callee : Term}
    {arguments : List Term}
    (hfits : ∀ depth, D.Fits store (.apply evaluator callee arguments depth)) :
    Settles (fun bound => machine.apply bound evaluator callee arguments) store := by
  have hbelow : ∀ total, SettlesBelow D machine evaluators total :=
    fun _ less _ => hlimited.settlesAt less
  have hrun : Settles (fun bound => machine.run bound
      (.apply evaluator callee arguments (store.callbackDepth evaluator))) store := by
    cases callee with
    | closure id params body home owner =>
        exact hlimited.settles_called (hbelow _) hstore rfl (hfits _)
    | primitive callable =>
        obtain ⟨_, hcallee, harguments⟩ := hfits 0
        obtain ⟨hinside, hlater⟩ := hlimited.hostCall hstore (.hostApplied callable arguments)
          evaluator (store.callbackDepth evaluator)
        apply settles_hostCall
        exact hlimited.settlesAt _ (callable, arguments) hinside rfl
          (hlimited.lawful.stays.holds hlater hcallee)
          (hlimited.lawful.stays.forall_holds hlater harguments)
    | _ =>
        apply Settles.of_succ
        exact (Ends.refuse _).settles store
  exact hrun

end Limited

end Discipline

/-! ## What can be reached stays in reach -/

def Territory.reached (origin : Store) (roots : List Term) (evaluators : List EvaluatorId) :
    Territory where
  home _ frame := origin.Known roots frame
  may _ _ _ := True
  opened _ frame := origin.Known roots frame
  runs evaluator := evaluator ∈ evaluators

namespace Discipline

def reached (origin : Store) (roots : List Term) (evaluators : List EvaluatorId) : Discipline where
  toTerritory := .reached origin roots evaluators
  related first second := first = second ∧ origin.frames.size ≤ first.frames.size ∧
    (Territory.reached origin roots evaluators).Guards (origin.Known roots) first
  permits _ _ := true
  allowed _ _ _ := True

section Reached

variable {origin : Store} {roots : List Term} {evaluators : List EvaluatorId}

theorem stays_reached : (Territory.reached origin roots evaluators).Stays where
  home _ hframe := hframe
  may _ hmay := hmay
  opened _ hframe := hframe

theorem lawful_reached {machine : Machine} (hhonest : machine.host.Honest) :
    (reached origin roots evaluators).Lawful machine where
  framing := by
    apply Store.framing_single
    intro before after ⟨hsize, hguards⟩ hframes hlater
    exact ⟨Nat.le_trans hsize hlater.size, hguards.keep stays_reached hframes hlater⟩
  size := by
    rintro first _ ⟨rfl, _⟩
    rfl
  parent := by
    rintro first _ ⟨rfl, _⟩ id
    rfl
  stays := stays_reached
  allowed_later _ _ := trivial
  lookup := by
    rintro first _ frame name ⟨rfl, _, hguards⟩ hhome _
    exact ⟨rfl, fun value hvalue => hguards.lookup? hhome hvalue⟩
  find := by
    rintro first _ frame name ⟨rfl, _⟩ _ _
    rfl
  assign := by
    rintro first _ frame name value found ⟨rfl, hsize, hguards⟩ _ _ hvalue _
    exact ⟨rfl, by rwa [Store.size_define], hguards.define stays_reached hvalue found name⟩
  define := by
    rintro first _ frame name value ⟨rfl, hsize, hguards⟩ _ _ hvalue
    exact ⟨rfl, by rwa [Store.size_define], hguards.define stays_reached hvalue frame name⟩
  push := by
    rintro first _ parent bindings ⟨rfl, hsize, hguards⟩ hparent _ hbindings
    exact ⟨rfl, Nat.le_trans hsize (Store.Resumes.push first _).size,
      hguards.push stays_reached hbindings hparent⟩
  home_push hstores _ := Or.inr hstores.2.1
  may_push _ hmay := hmay
  opened_push hstores _ := Or.inr hstores.2.1
  opened_bindings := by
    rintro first _ frame ⟨rfl, _, hguards⟩ hopened
    exact ⟨rfl, hguards.value hopened⟩
  opened_parent hstores hopened hparent := hstores.2.2.parent hopened hparent
  applied _ _ := trivial
  called _ _ := trivial
  method _ hopened := ⟨hopened, fun _ => trivial⟩
  opens _ _ _ hhome := hhome
  host _ harguments := keeps_of_honest stays_reached (hhonest _ _) harguments

end Reached

end Discipline

namespace Machine

open Run

/-- Whether a machine has limits wherever a program can get: it has one for each of some evaluators,
and from some terms no other evaluators and only closures of these can be reached. -/
structure LimitedFrom (machine : Machine) (evaluators : List EvaluatorId) (store : Store)
    (roots : List Term) : Prop where
  limit : ∀ evaluator ∈ evaluators, (machine.limit evaluator).isSome
  evaluator : ∀ evaluator, store.Reaches roots (.evaluator evaluator) → evaluator ∈ evaluators
  owner : ∀ id params body home owner, store.Reaches roots (.closure id params body home owner) →
    owner.isSome

theorem LimitedFrom.admits {machine : Machine} {evaluators : List EvaluatorId} {store : Store}
    {roots : List Term} (hlimited : machine.LimitedFrom evaluators store roots) (term : Term)
    (hterm : store.Reaches roots term) :
    (Territory.reached store roots evaluators).Admits store term := by
  refine Territory.admits_of_reaches ?_ (fun hframe => Or.inl hframe)
    (fun hevaluator => hlimited.evaluator _ hevaluator) term hterm
  intro id params body home owner hclosure
  have howner := hlimited.owner id params body home owner hclosure
  cases owner with
  | none => cases howner
  | some owner =>
      exact ⟨Or.inl hclosure.home, fun _ _ => trivial, hlimited.evaluator owner hclosure.owner⟩

theorem LimitedFrom.limited {machine : Machine} {evaluators : List EvaluatorId} {store : Store}
    {roots : List Term} (hlimited : machine.LimitedFrom evaluators store roots)
    (hhonest : machine.host.Honest) (hcalls : WellFounded machine.host.Calls) :
    (Discipline.reached store roots evaluators).Limited machine evaluators where
  lawful := Discipline.lawful_reached hhonest
  permits := rfl
  allowed _ _ _ := trivial
  runs hruns := hruns
  limit hmem := Option.isSome_iff_exists.mp (hlimited.limit _ hmem)
  calls := hcalls

/-- From some bound on, a run ends with a value or a fault, and always the same. -/
def Finishes (family : Nat → Run α) (store : Store) : Prop :=
  ∃ bound result, ((∃ value, result.1 = .ok value) ∨ ∃ fault, result.1 = .error (.fault fault)) ∧
    ∀ larger, bound ≤ larger → family larger store = result

theorem finishes_of_settles {family : Nat → Run α} {store : Store}
    (hsettles : Settles family store) : Finishes family store := by
  obtain ⟨bound, result, hends, hsame⟩ := hsettles
  refine ⟨bound, result, ?_, hsame⟩
  rcases result with ⟨(fault | _) | value, after⟩
  · exact Or.inr ⟨fault, rfl⟩
  · exact absurd rfl hends
  · exact Or.inl ⟨value, rfl⟩

def invokeCall (name : String) : Term :=
  .application (.variable "invoke") [.variable name]

/-- A store with two closures of different evaluators that let each other be called. -/
def bounceStore : Store where
  frames := #[{ bindings := [("invoke", .primitive (.host "invoke")),
    ("ping", .closure 0 [] (invokeCall "pong") 0 (some 1)),
    ("pong", .closure 1 [] (invokeCall "ping") 0 (some 2))] }]
  closures := 2

def limitedMachine : Machine where
  host := callbackLibrary
  limit _ := some 20

end Machine

end Rulebook
