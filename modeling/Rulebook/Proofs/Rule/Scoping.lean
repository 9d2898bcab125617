import Rulebook.Proofs.Evaluation.Definitions
import Rulebook.Proofs.Rule.Firing
import Rulebook.Proofs.Rule.Trials

/-!
# The frame that rules are evaluated in

Rules that are given bindings are evaluated in a fresh frame.  What they define goes there, so that
the frames that were there before keep the names that they have, and an engine applies one of its
rules just as the rule is applied by itself.

An engine takes bindings that bind nothing for no bindings at all.  Then it evaluates its rules in
the given frame, and what they define stays there.
-/

namespace Rulebook

/-- An evaluation in a frame applies no primitive that binds names. -/
def Runner.DefinesOnly (runner : Runner) (term : Term) (frame : FrameId) (store : Store) : Prop :=
  runner.machine.AppliesOnly (fun callable => !callable.bindsNames) runner.bound
    (.eval runner.evaluator term frame (store.callbackDepth runner.evaluator)) store

structure Rule.DefinesOnly (rule : Rule) (runner : Runner) (frame : FrameId) (store : Store) :
    Prop where
  condition : runner.DefinesOnly rule.condition frame store
  action : ∀ value middle, runner.evaluate rule.condition frame store = (.ok value, middle) →
    value.isTruthy = true → runner.DefinesOnly rule.action frame (middle.log (.ruleFired rule.id))

/-- So do all evaluations of the rules that are tried. -/
def Rule.AllDefineOnly (runner : Runner) (onlyFirst : Bool) (frame : FrameId) :
    List Rule → Store → Prop
  | [], _ => True
  | rule :: rest, store => rule.DefinesOnly runner frame store ∧
    ∀ value after, runner.applyRule rule frame store = (.ok value, after) →
      onlyFirst = false ∨ value = .null → AllDefineOnly runner onlyFirst frame rest after

def Engine.DefinesOnly (engine : Engine) (machine : Machine) (bound : Nat) (frame : FrameId)
    (store : Store) : Prop :=
  Rule.AllDefineOnly (engine.runner machine bound)
    (engine.settings.matchStrategy ≠ .allMatch) frame
    (Rule.inOrder engine.settings.matchStrategy engine.rules) store

/-- Runs one after another move a store along an order if each does where it is started. -/
theorem Store.FrameOrder.bind_at {R : Store → Store → Prop} (hR : FrameOrder R) {run : Run α}
    {next : α → Run β} {store : Store} (hrun : R store (run store).2)
    (hnext : ∀ value after, run store = (.ok value, after) → R after (next value after).2) :
    R store ((run >>= next) store).2 := by
  rcases houtcome : run store with ⟨halt | value, after⟩
  · rw [Run.bind_of_halt houtcome]
    rwa [houtcome] at hrun
  · rw [Run.bind_of_ok houtcome]
    rw [houtcome] at hrun
    exact hR.trans hrun (hnext value after houtcome)

/-- Only one frame gains names, whichever these are. -/
abbrev Store.GrowsIn (frame : FrameId) : Store → Store → Prop :=
  Store.Grows fun id _ => id = frame

theorem Store.GrowsIn.frameOrder (frame : FrameId) : FrameOrder (GrowsIn frame) :=
  (Machine.growthOrder fun id _ => id = frame).toFrameOrder

namespace Runner

variable {runner : Runner} {frame : FrameId} {store : Store}

theorem growsIn_evaluate {term : Term} (hterm : runner.DefinesOnly term frame store) :
    Store.GrowsIn frame store (runner.evaluate term frame store).2 := by
  have hgrows := Machine.moves_runPermitted runner.machine runner.bound
    (.eval runner.evaluator term frame (store.callbackDepth runner.evaluator)) store
  rw [hterm] at hgrows
  exact hgrows.mono fun id _ name hname => hname.1

theorem growsIn_applyRule {rule : Rule} (hrule : rule.DefinesOnly runner frame store) :
    Store.GrowsIn frame store (runner.applyRule rule frame store).2 := by
  have horder := Store.GrowsIn.frameOrder frame
  apply horder.bind_at (growsIn_evaluate hrule.condition)
  intro value middle houtcome
  split_ifs with htruthy
  · have hlogged : Store.GrowsIn frame middle (middle.log (.ruleFired rule.id)) :=
      horder.of_frames_eq rfl
    exact horder.trans hlogged (growsIn_evaluate (hrule.action value middle houtcome htruthy))
  · exact horder.of_frames_eq rfl

theorem growsIn_tryRules {onlyFirst : Bool} {rules : List Rule}
    (hrules : Rule.AllDefineOnly runner onlyFirst frame rules store) :
    Store.GrowsIn frame store (runner.tryRules onlyFirst frame rules store).2 := by
  have horder := Store.GrowsIn.frameOrder frame
  induction rules generalizing store with
  | nil => exact horder.of_frames_eq rfl
  | cons rule rest ih =>
      obtain ⟨hrule, hrest⟩ := hrules
      apply horder.bind_at (growsIn_applyRule hrule)
      intro value after houtcome
      have hothers : onlyFirst = false ∨ value = .null →
          Store.GrowsIn frame after (runner.tryRules onlyFirst frame rest after).2 :=
        fun hmore => ih (hrest value after houtcome hmore)
      split
      · exact hothers (Or.inr rfl)
      · split_ifs with honly
        · exact horder.of_frames_eq rfl
        · rw [Bool.not_eq_true] at honly
          apply horder.bind_at (hothers (Or.inl honly))
          intro others last _
          exact horder.of_frames_eq rfl

theorem growsIn_evaluateRules {rules : List Rule} {strategy : MatchStrategy}
    (hrules : Rule.AllDefineOnly runner (strategy ≠ .allMatch) frame
      (Rule.inOrder strategy rules) store) (resolution : ConflictResolution) :
    Store.GrowsIn frame store
      (runner.evaluateRules rules frame strategy resolution store).2 := by
  have horder := Store.GrowsIn.frameOrder frame
  apply horder.bind_at (growsIn_tryRules hrules)
  intro found after _
  split_ifs
  · cases resolution with
    | error => exact horder.of_frames_eq rfl
    | warn => exact horder.of_frames_eq rfl
    | firstWins => exact horder.of_frames_eq rfl
  · exact horder.of_frames_eq rfl

end Runner

namespace Engine

variable {engine : Engine} {machine : Machine} {bound : Nat} {frame : FrameId} {store : Store}
  {bindings : Bindings}

theorem growsIn_evaluateIn (hrules : engine.DefinesOnly machine bound frame store) :
    Store.GrowsIn frame store (engine.evaluateIn machine bound frame store).2 := by
  have horder := Store.GrowsIn.frameOrder frame
  have hevaluated := Runner.growsIn_evaluateRules hrules engine.settings.conflictResolution
  have hobserved : Store.GrowsIn frame store (Run.observe
      ((engine.runner machine bound).evaluateRules engine.rules frame
        engine.settings.matchStrategy engine.settings.conflictResolution) store).2 := by
    rw [Run.observe]
    split <;> rename_i houtcome <;> rwa [houtcome] at hevaluated
  apply horder.bind_at hobserved
  intro outcome after _
  split
  · exact horder.of_frames_eq rfl
  · exact horder.of_frames_eq rfl
  · exact horder.of_frames_eq rfl

theorem apply_of_bindings (hbindings : bindings ≠ []) {id : String} {rule : Rule}
    (hrule : engine.rule? id = some rule) :
    engine.apply machine bound id frame bindings =
      (engine.runner machine bound).applyRuleWith rule frame bindings := by
  have hempty : bindings.isEmpty = false := by simpa using hbindings
  rw [apply, hrule]
  simp only [hempty, Bool.false_eq_true, if_false]

/-- What rules define goes to the frame of the bindings, which was not there before. -/
theorem names_evaluate_of_bindings (hbindings : bindings ≠ [])
    (hrules : engine.DefinesOnly machine bound store.frames.size
      (store.extend (some frame) bindings).1) {id : FrameId} (hid : id < store.frames.size) :
    ((engine.evaluate machine bound frame bindings store).2.bindings id).names =
      (store.bindings id).names := by
  have hpushed : Store.GrowsIn store.frames.size store (store.extend (some frame) bindings).1 :=
    Store.Grows.push store _
  have hgrows := hpushed.trans (growsIn_evaluateIn hrules)
  rw [engine.evaluate_eq machine bound store frame hbindings]
  obtain ⟨added, hadded, hgains⟩ := hgrows.names id hid
  have hnone : added = [] := by
    apply List.eq_nil_iff_forall_not_mem.mpr
    intro name hname
    exact absurd (hgains name hname) (Nat.ne_of_lt hid)
  rw [hadded, hnone, List.append_nil]

/-- An engine that is given bindings applies a rule as the rule is applied with them, and the rules
that it evaluates add no name to a frame that was there. -/
theorem scopes_bindings (engine : Engine) (machine : Machine) (bound : Nat) (store : Store)
    (frame : FrameId) (bindings : Bindings) (hbindings : bindings ≠ []) :
    (∀ id rule, engine.rule? id = some rule →
      engine.apply machine bound id frame bindings store =
        (engine.runner machine bound).applyRuleWith rule frame bindings store) ∧
    (engine.DefinesOnly machine bound store.frames.size
        (store.extend (some frame) bindings).1 →
      ∀ id < store.frames.size,
        ((engine.evaluate machine bound frame bindings store).2.bindings id).names =
          (store.bindings id).names) := by
  constructor
  · intro id rule hrule
    rw [apply_of_bindings hbindings hrule]
  · intro hrules id hid
    exact names_evaluate_of_bindings hbindings hrules hid

open Machine (callbackMachine limitStore)

def noteRule : Rule where
  id := "note"
  condition := .definition "seen" (.variable "limit")
  action := .null

def keepRule : Rule where
  id := "keep"
  condition := .bool true
  action := .definition "kept" (.variable "seen")

/-- The first rule gives nothing, and the second one sees what it has defined. -/
def keepEngine : Engine where
  rules := [noteRule, keepRule]
  settings := {}
  evaluator := 0

/-- Both definitions are in the frame of the bindings, and the one around it has none of them. -/
theorem scopes_bindings_keep :
    keepEngine.apply callbackMachine 9 "keep" 0 [("seen", .int 5)] limitStore =
      (keepEngine.runner callbackMachine 9).applyRuleWith keepRule 0 [("seen", .int 5)]
        limitStore ∧
    keepEngine.DefinesOnly callbackMachine 9 1 (limitStore.extend (some 0) [("limit", .int 5)]).1 ∧
    ((keepEngine.evaluate callbackMachine 9 0 [("limit", .int 5)] limitStore).2.bindings
      0).names = ["limit"] ∧
    ((keepEngine.evaluate callbackMachine 9 0 [("limit", .int 5)] limitStore).2.bindings
      1).names = ["limit", "seen", "kept"] := by
  set runner := keepEngine.runner callbackMachine 9
  set inner := (limitStore.extend (some 0) [("limit", .int 5)]).1
  have hcondition : runner.evaluate noteRule.condition 1 inner =
      (.ok (.int 5), inner.define 1 "seen" (.int 5)) := rfl
  have hnote : runner.applyRule noteRule 1 inner =
      (.ok .null, (inner.define 1 "seen" (.int 5)).log (.ruleFired "note")) := rfl
  have hrules : keepEngine.DefinesOnly callbackMachine 9 1 inner := by
    refine ⟨⟨rfl, ?_⟩, ?_⟩
    · intro value middle hvalue _
      cases hcondition.symm.trans hvalue
      rfl
    · intro value after hvalue _
      cases hnote.symm.trans hvalue
      refine ⟨⟨rfl, ?_⟩, fun _ _ _ _ => trivial⟩
      rintro _ _ ⟨⟩ _
      rfl
  have happly := scopes_bindings keepEngine callbackMachine 9 limitStore 0 [("seen", .int 5)]
    (List.cons_ne_nil _ _)
  have hevaluate := scopes_bindings keepEngine callbackMachine 9 limitStore 0 [("limit", .int 5)]
    (List.cons_ne_nil _ _)
  exact ⟨happly.1 "keep" keepRule rfl, hrules, hevaluate.2 hrules 0 Nat.zero_lt_one, rfl⟩

/-- Bindings that bind nothing do not keep what a rule defines out of the given frame, neither when
the engine applies the rule nor when it evaluates all rules. -/
theorem not_scopes_empty_bindings :
    ((keepEngine.apply callbackMachine 9 "note" 0 [] limitStore).2.bindings 0).names =
        ["limit", "seen"] ∧
    (((keepEngine.runner callbackMachine 9).applyRuleWith noteRule 0 [] limitStore).2.bindings
        0).names = ["limit"] ∧
    ((keepEngine.evaluate callbackMachine 9 0 [] limitStore).2.bindings 0).names =
        ["limit", "seen", "kept"] :=
  ⟨rfl, rfl, rfl⟩

end Engine
end Rulebook
