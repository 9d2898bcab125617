import Rulebook.Proofs.Evaluation.Hosts
import Rulebook.Proofs.Rule.Trials

/-!
# Bindings shield the environment

Rules that are given bindings are evaluated in a fresh frame inside of the environment.  Everything
that they create is inside of that frame, so that a name of the bindings is found there before it is
found in the environment.  Definitions go to frames that are new, and what is left is assignments to
other names.  This needs that no closure comes in from outside, since it would run in a frame of its
own, and that no primitive is applied but the core operations.
-/

namespace Rulebook

/-- Whether an event does not say that a primitive other than a core operation was applied. -/
def Event.isCore : Event → Bool
  | .hostApplied (.core _) _ => true
  | .hostApplied .. => false
  | _ => true

namespace Store

/-- Only core operations have been applied as primitives since a store. -/
def CoreOnly (before after : Store) : Prop :=
  ∀ event ∈ after.trace.toList.drop before.trace.size, event.isCore = true

/-- No closure can be reached from some terms. -/
def ClosureFree (store : Store) (roots : List Term) : Prop :=
  ∀ term, store.Reaches roots term → term.isClosure = false

/-- Frames bind the names that they did, with the same values for names that are shielded and for
all that are not assigned. -/
structure Shields (shielded : List String) (assigned : String → Prop) (before after : Store) :
    Prop where
  names : ∀ id < before.frames.size, (after.bindings id).names = (before.bindings id).names
  value : ∀ id < before.frames.size, ∀ name, name ∈ shielded ∨ ¬ assigned name →
    (after.bindings id).value? name = (before.bindings id).value? name

theorem CoreOnly.of_later {origin before after : Store} (hcore : origin.CoreOnly after)
    (hlater : Later before after) : origin.CoreOnly before := by
  intro event hevent
  apply hcore
  obtain ⟨events, hevents⟩ := hlater.trace
  rw [hevents, List.drop_append]
  exact List.mem_append_left _ hevent

theorem CoreOnly.of_log {origin store : Store} {callable : Primitive} {arguments : List Term}
    (hcore : origin.CoreOnly (store.log (.hostApplied callable arguments)))
    (htrace : origin.trace.size ≤ store.trace.size) : ∃ operation, callable = .core operation := by
  have hisCore : (Event.hostApplied callable arguments).isCore = true := by
    apply hcore
    have hevents : (store.log (.hostApplied callable arguments)).trace.toList =
        store.trace.toList ++ [.hostApplied callable arguments] := by simp [Store.log]
    rw [hevents, List.drop_append_of_le_length (by simpa using htrace)]
    exact List.mem_append_right _ List.mem_cons_self
  cases callable with
  | core operation => exact ⟨operation, rfl⟩
  | host name => cases hisCore
  | method method => cases hisCore

namespace Shields

variable {shielded : List String} {assigned : String → Prop} {before after : Store}

theorem refl (store : Store) : Shields shielded assigned store store where
  names _ _ := rfl
  value _ _ _ _ := rfl

theorem of_bindings (hshields : Shields shielded assigned before after) {later : Store}
    (hbindings : ∀ id < before.frames.size, later.bindings id = after.bindings id) :
    Shields shielded assigned before later where
  names id hid := by rw [hbindings id hid, hshields.names id hid]
  value id hid name hname := by rw [hbindings id hid, hshields.value id hid name hname]

theorem define (hshields : Shields shielded assigned before after) {found : FrameId} {name : String}
    (hbinds : (after.bindings found).binds name = true) (hname : name ∉ shielded)
    (hassigned : assigned name) (value : Term) :
    Shields shielded assigned before (after.define found name value) where
  names id hid := by rw [names_define hbinds, hshields.names id hid]
  value id hid other hother := by
    rw [← hshields.value id hid other hother]
    by_cases hfound : id = found
    · subst hfound
      have hne : other ≠ name := by
        rintro rfl
        exact hother.elim hname fun hnot => hnot hassigned
      rw [bindings_define_self (lt_size_of_binds hbinds), Bindings.value?_insert_of_ne hne]
    · rw [bindings_define_of_ne hfound]

end Shields

end Store

/-! ## Staying behind the frame of the bindings -/

/-- As long as only core operations are applied, expressions are evaluated in new frames, and
certain names are the only ones that they assign. -/
def Territory.behind (origin : Store) (roots : List Term) (assigned : String → Prop) :
    Territory where
  home store frame := origin.CoreOnly store → origin.frames.size ≤ frame
  may store _ access := origin.CoreOnly store → ∀ name, access = .assign name → assigned name
  opened store frame := origin.CoreOnly store → origin.Known roots frame
  runs _ := True

namespace Territory

variable {origin store : Store} {roots : List Term} {assigned : String → Prop}

theorem stays_behind : (behind origin roots assigned).Stays where
  home hlater hhome hcore := hhome (hcore.of_later hlater)
  may hlater hmay hcore := hmay (hcore.of_later hlater)
  opened hlater hopened hcore := hopened (hcore.of_later hlater)

theorem admits_behind (assigned : String → Prop) (hclosures : origin.ClosureFree roots)
    (term : Term) (hterm : origin.Reaches roots term) :
    (behind origin roots assigned).Admits origin term := by
  refine admits_of_reaches ?_ (fun hframe _ => Or.inl hframe) (fun _ => trivial) term hterm
  intro id params body home owner hclosure
  exact absurd (hclosures _ hclosure) (by simp [Term.isClosure])

theorem holds_behind {term : Term}
    (hterm : origin.CoreOnly store → (behind origin roots assigned).Holds store term) :
    (behind origin roots assigned).Holds store term := by
  by_cases hcore : origin.CoreOnly store
  · exact hterm hcore
  -- The territory has no bounds any more.
  · intro part _
    unfold Admits
    split
    · exact ⟨fun h => absurd h hcore, fun _ _ h => absurd h hcore, trivial⟩
    · exact fun h => absurd h hcore
    · exact fun h => absurd h hcore
    · exact fun h => absurd h hcore
    · trivial
    · trivial
    · trivial

end Territory

/-- The frame of the bindings comes right after those that were there before, and all frames behind
it are inside of it. -/
structure Shielding (origin : Store) (roots : List Term) (shielded : List String)
    (assigned : String → Prop) (store : Store) : Prop where
  size : origin.frames.size < store.frames.size
  binds : ∀ name ∈ shielded, (store.bindings origin.frames.size).binds name = true
  parent : ∀ id parent, origin.frames.size < id → store.parent? id = some parent →
    origin.frames.size ≤ parent
  guards : (Territory.behind origin roots assigned).Guards (origin.Known roots) store
  shields : Store.Shields shielded assigned origin store

namespace Shielding

variable {origin store : Store} {roots : List Term} {shielded : List String}
  {assigned : String → Prop}

theorem start {rules : List Rule} {frame : FrameId} {bindings : Bindings}
    (hclosures : origin.ClosureFree (Rule.roots rules frame bindings)) :
    Shielding origin (Rule.roots rules frame bindings) bindings.names assigned
      (origin.extend (some frame) bindings).1 where
  size := by simp [Store.extend, Store.push]
  binds name hname := by
    rw [Store.extend, Store.bindings_push, if_pos rfl]
    exact Bindings.binds_insertAll (Or.inr hname)
  parent id parent hid hparent := by
    rw [Store.extend, Store.parent?_push, if_neg (Nat.ne_of_gt hid),
      Store.parent?_of_size_le (Nat.le_of_lt hid)] at hparent
    cases hparent
  guards := Territory.guards_extend Territory.stays_behind
    (Territory.admits_behind assigned hclosures)
  shields := by
    apply (Store.Shields.refl origin).of_bindings
    intro id hid
    rw [Store.extend, Store.bindings_push, if_neg (Nat.ne_of_lt hid)]

theorem keep (hshielding : Shielding origin roots shielded assigned store) {after : Store}
    (hframes : after.frames = store.frames) (hlater : Store.Later store after) :
    Shielding origin roots shielded assigned after where
  size := by
    rw [hframes]
    exact hshielding.size
  binds := by
    rw [Store.bindings, hframes, ← Store.bindings]
    exact hshielding.binds
  parent id parent hid hparent := by
    rw [Store.parent?_congr hframes] at hparent
    exact hshielding.parent id parent hid hparent
  guards := hshielding.guards.keep Territory.stays_behind hframes hlater
  shields := by
    apply hshielding.shields.of_bindings
    intro id _
    rw [Store.bindings, hframes, ← Store.bindings]

theorem define (hshielding : Shielding origin roots shielded assigned store) {value : Term}
    (hvalue : (Territory.behind origin roots assigned).Holds store value) {frame : FrameId}
    {name : String}
    (hshields : Store.Shields shielded assigned origin (store.define frame name value)) :
    Shielding origin roots shielded assigned (store.define frame name value) where
  size := by
    rw [Store.size_define]
    exact hshielding.size
  binds other hother := by
    have hbinds := hshielding.binds other hother
    rw [Store.bindings_define]
    split_ifs
    · exact Bindings.binds_insert (Or.inl hbinds) value
    · exact hbinds
  parent id parent hid hparent := by
    rw [Store.parent?_define] at hparent
    exact hshielding.parent id parent hid hparent
  guards := hshielding.guards.define Territory.stays_behind hvalue frame name
  shields := hshields

theorem shields_define (hshielding : Shielding origin roots shielded assigned store)
    {frame : FrameId} (hframe : origin.frames.size ≤ frame) (name : String) (value : Term) :
    Store.Shields shielded assigned origin (store.define frame name value) := by
  apply hshielding.shields.of_bindings
  intro id hid
  exact Store.bindings_define_of_ne (Nat.ne_of_lt (Nat.lt_of_lt_of_le hid hframe)) store name value

theorem shields_assign (hshielding : Shielding origin roots shielded assigned store)
    {frame found : FrameId} {name : String} (hframe : origin.frames.size ≤ frame)
    (hassigned : assigned name) (hfound : store.find? frame name = some found) (value : Term) :
    Store.Shields shielded assigned origin (store.define found name value) := by
  by_cases hnew : origin.frames.size ≤ found
  · exact hshielding.shields_define hnew name value
  · apply hshielding.shields.define (Store.binds_of_find? hfound) _ hassigned
    -- Behind the frame of the bindings, their names are found there at the latest.
    intro hname
    exact hnew (Store.le_find? hshielding.parent (hshielding.binds name hname) hframe hfound)

theorem push (hshielding : Shielding origin roots shielded assigned store) {parent : FrameId}
    (hparent : origin.frames.size ≤ parent) {bindings : Bindings}
    (hbindings : ∀ binding ∈ bindings,
      (Territory.behind origin roots assigned).Holds store binding.2) :
    Shielding origin roots shielded assigned (store.push ⟨bindings, some parent⟩).1 where
  size := Nat.lt_of_lt_of_le hshielding.size (Store.Resumes.push store _).size
  binds := by
    rw [Store.bindings_push, if_neg (Nat.ne_of_lt hshielding.size)]
    exact hshielding.binds
  parent id other hid hother := by
    rw [Store.parent?_push] at hother
    split_ifs at hother
    · cases hother
      exact hparent
    · exact hshielding.parent id other hid hother
  guards := hshielding.guards.push Territory.stays_behind hbindings (Or.inr hparent)
  shields := by
    apply hshielding.shields.of_bindings
    intro id hid
    have hne : id ≠ store.frames.size := Nat.ne_of_lt (Nat.lt_trans hid hshielding.size)
    rw [Store.bindings_push, if_neg hne]

end Shielding

namespace Discipline

def behind (origin : Store) (roots : List Term) (shielded : List String)
    (assigned : String → Prop) : Discipline where
  toTerritory := .behind origin roots assigned
  related first second := first = second ∧ origin.trace.size ≤ first.trace.size ∧
    (origin.CoreOnly first → Shielding origin roots shielded assigned first)
  permits _ _ := true
  allowed store callable _ := origin.CoreOnly store → ∃ operation, callable = .core operation

variable {origin : Store} {roots : List Term} {shielded : List String} {assigned : String → Prop}

theorem lawful_behind (machine : Machine) :
    (behind origin roots shielded assigned).Lawful machine where
  framing := by
    apply Store.framing_single
    intro before after ⟨htrace, hshielding⟩ hframes hlater
    constructor
    · exact Nat.le_trans htrace hlater.trace_size
    · exact fun hcore => (hshielding (hcore.of_later hlater)).keep hframes hlater
  size := by
    rintro first _ ⟨rfl, _⟩
    rfl
  parent := by
    rintro first _ ⟨rfl, _⟩ id
    rfl
  stays := Territory.stays_behind
  allowed_later hlater hallowed hcore := hallowed (hcore.of_later hlater)
  lookup := by
    rintro first _ frame name ⟨rfl, _, hshielding⟩ hhome _
    refine ⟨rfl, fun value hvalue => Territory.holds_behind fun hcore => ?_⟩
    exact (hshielding hcore).guards.lookup? (Or.inr (hhome hcore)) hvalue
  find := by
    rintro first _ frame name ⟨rfl, _⟩ _ _
    rfl
  assign := by
    rintro first _ frame name value found ⟨rfl, htrace, hshielding⟩ hhome hmay hvalue hfound
    refine ⟨rfl, htrace, fun hcore => (hshielding hcore).define hvalue ?_⟩
    exact (hshielding hcore).shields_assign (hhome hcore) (hmay hcore name rfl) hfound value
  define := by
    rintro first _ frame name value ⟨rfl, htrace, hshielding⟩ hhome _ hvalue
    refine ⟨rfl, htrace, fun hcore => (hshielding hcore).define hvalue ?_⟩
    exact (hshielding hcore).shields_define (hhome hcore) name value
  push := by
    rintro first _ parent bindings ⟨rfl, htrace, hshielding⟩ hparent _ hbindings
    exact ⟨rfl, htrace, fun hcore => (hshielding hcore).push (hparent hcore) hbindings⟩
  home_push hstores _ hcore := Nat.le_of_lt (hstores.2.2 hcore).size
  may_push _ hmay := hmay
  opened_push hstores _ hcore := Or.inr (Nat.le_of_lt (hstores.2.2 hcore).size)
  opened_bindings := by
    rintro first _ frame ⟨rfl, _, hshielding⟩ hopened
    refine ⟨rfl, fun binding hbinding => Territory.holds_behind fun hcore => ?_⟩
    exact (hshielding hcore).guards.value (hopened hcore) binding hbinding
  opened_parent hstores hopened hparent hcore :=
    (hstores.2.2 hcore).guards.parent (hopened hcore) hparent
  applied hstores _ hcore := hcore.of_log hstores.2.1
  -- Neither host functions nor methods are applied while only core operations are.
  called hallowed _ hcore := by
    obtain ⟨_, hhost⟩ := hallowed hcore
    cases hhost
  method hallowed _ := by
    constructor
    · intro hcore
      obtain ⟨_, hmethod⟩ := hallowed hcore
      cases hmethod
    · intro _ hcore
      obtain ⟨_, hmethod⟩ := hallowed hcore
      cases hmethod
  opens _ _ _ hhome hcore := Or.inr (hhome hcore)
  host hallowed _ := by
    apply keeps_of_forall
    intro after hlater term
    apply Territory.holds_behind
    intro hcore
    obtain ⟨_, hhost⟩ := hallowed (hcore.of_later hlater)
    cases hhost

end Discipline

/-! ## Rules with bindings -/

def Rule.Assigns (rule : Rule) (name : String) : Prop :=
  .assign name ∈ rule.accesses

abbrev Discipline.bound (store : Store) (rules : List Rule) (frame : FrameId) (bindings : Bindings)
    (assigned : String → Prop) : Discipline :=
  .behind store (Rule.roots rules frame bindings) bindings.names assigned

section Rules

variable {store : Store} {rules : List Rule} {frame : FrameId} {bindings : Bindings}
  {assigned : String → Prop}

theorem related_start (hclosures : store.ClosureFree (Rule.roots rules frame bindings)) :
    (Discipline.bound store rules frame bindings assigned).related
      (store.extend (some frame) bindings).1 (store.extend (some frame) bindings).1 :=
  ⟨rfl, Nat.le_refl _, fun _ => .start hclosures⟩

theorem agree_applyRule_behind (runner : Runner) {first second : Store} {rule : Rule}
    (hclosures : store.ClosureFree (Rule.roots rules frame bindings)) (hrule : rule ∈ rules)
    (hassigned : ∀ name, rule.Assigns name → assigned name)
    (hstores : (Discipline.bound store rules frame bindings assigned).related first second)
    (hlater : Store.Later store first) :
    (Discipline.bound store rules frame bindings assigned).Agrees
      (Discipline.bound store rules frame bindings assigned).Holds
      (runner.applyRule rule store.frames.size) first second := by
  set D := Discipline.bound store rules frame bindings assigned
  have law : D.Lawful runner.machine := Discipline.lawful_behind runner.machine
  have hevaluate : ∀ term ∈ [rule.condition, rule.action], ∀ {after after'},
      D.related after after' → Store.Later store after →
        D.Agrees D.Holds (runner.evaluate term store.frames.size) after after' := by
    intro term hterm after after' hafter hlater'
    apply law.agree_evaluate hafter
    apply law.agree_run rfl hafter
    apply law.fits_of_mem_rule (Territory.admits_behind assigned hclosures) hrule hterm hlater'
    · exact trivial
    · exact fun _ => Nat.le_refl _
    · rintro access haccess _ name rfl
      exact hassigned name haccess
  apply law.agree_applyRule (hevaluate _ (by simp) hstores hlater)
  intro value middle after _ _ hafter hresumes
  exact hevaluate _ (by simp) hafter (hlater.trans hresumes.toLater)

theorem shields_applyRuleWith {runner : Runner} {rule : Rule}
    (hclosures : store.ClosureFree (Rule.roots [rule] frame bindings))
    (hcore : store.CoreOnly (runner.applyRuleWith rule frame bindings store).2) :
    store.Shields bindings.names rule.Assigns
      (runner.applyRuleWith rule frame bindings store).2 := by
  rw [Runner.applyRuleWith_eq] at hcore ⊢
  have hagree := agree_applyRule_behind runner hclosures List.mem_cons_self (fun _ hname => hname)
    (related_start hclosures) (Store.later_extend store frame bindings)
  exact (hagree.related.2.2 hcore).shields

theorem shields_apply {engine : Engine} {machine : Machine} {bound : Nat} {id : String}
    (hbindings : bindings ≠ [])
    (hclosures : store.ClosureFree (Rule.roots (engine.rule? id).toList frame bindings))
    (hcore : store.CoreOnly (engine.apply machine bound id frame bindings store).2) :
    store.Shields bindings.names (fun name => ∃ rule ∈ engine.rule? id, rule.Assigns name)
      (engine.apply machine bound id frame bindings store).2 := by
  have hempty : bindings.isEmpty = false := by simpa using hbindings
  rw [Engine.apply] at hcore ⊢
  cases hrule : engine.rule? id with
  | none => exact .refl store
  | some rule =>
      simp only [hrule, hempty, Bool.false_eq_true, if_false] at hclosures hcore ⊢
      have hshields := shields_applyRuleWith hclosures hcore
      simpa using hshields

theorem shields_evaluate {engine : Engine} {machine : Machine} {bound : Nat}
    (hbindings : bindings ≠ [])
    (hclosures : store.ClosureFree (Rule.roots engine.rules frame bindings))
    (hcore : store.CoreOnly (engine.evaluate machine bound frame bindings store).2) :
    store.Shields bindings.names (fun name => ∃ rule ∈ engine.rules, rule.Assigns name)
      (engine.evaluate machine bound frame bindings store).2 := by
  rw [Engine.evaluate_eq engine machine bound store frame hbindings] at hcore ⊢
  set D := Discipline.bound store engine.rules frame bindings
    fun name => ∃ rule ∈ engine.rules, rule.Assigns name
  have law : D.Lawful machine := Discipline.lawful_behind machine
  have hagree : D.Agrees (fun _ _ => True) (engine.evaluateIn machine bound store.frames.size)
      (store.extend (some frame) bindings).1 (store.extend (some frame) bindings).1 := by
    apply law.agree_evaluateIn (related_start hclosures)
    intro rule hrule after after' hafter hresumes
    exact agree_applyRule_behind (engine.runner machine bound) hclosures hrule
      (fun name hname => ⟨rule, hrule, hname⟩) hafter
      ((Store.later_extend store frame bindings).trans hresumes.toLater)
  exact (hagree.related.2.2 hcore).shields

end Rules

/-- A rule lets a closure assign a name of the bindings, assigns another name, and defines that one
in the end. -/
def countRule : Rule where
  id := "count"
  condition := .variable "total"
  action := .sequence [.application (.lambda [] (.assignment "total" (.int 6))) [],
    .assignment "count" (.application (.variable "+") [.variable "total", .int 1]),
    .definition "count" (.int 0)]

def countMachine : Machine where
  host := callbackLibrary
  limit _ := none

def countEngine : Engine where
  rules := [countRule]
  settings := {}
  evaluator := 0

def countStore : Store where
  frames := #[{ bindings := [("+", .primitive (.core .plus)), ("total", .int 10),
    ("count", .int 1)] }]

def countInventory : List Term :=
  let assigned := .assignment "total" (.int 6)
  let sum := .application (.variable "+") [.variable "total", .int 1]
  [.scope 0, .int 5, .primitive (.core .plus), .int 10, .int 1, .int 6, .int 0, .variable "total",
    .variable "+", assigned, .lambda [] assigned, .application (.lambda [] assigned) [], sum,
    .assignment "count" sum, .definition "count" (.int 0), countRule.action]

end Rulebook
