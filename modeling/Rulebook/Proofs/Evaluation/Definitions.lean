import Rulebook.Proofs.Evaluation.Bounds
import Rulebook.Proofs.Scope.Growth

/-!
# What an evaluation adds to the frames

An evaluation gives new names to the frame that it was started in and to no other frame that was
there before, and only names that the expression defines outside of lambdas and quotations.  This
holds however the evaluation ends, and whatever closures it enters: a closure runs in a frame of
its own.  It is assumed that the run applies no primitive that binds names itself.
-/

namespace Rulebook

mutual

/-- The names that an expression defines where it is evaluated itself: not in the bodies of lambdas
and not in what is quoted. -/
def Term.definedNames : Term → List String
  | .application operator operands => operator.definedNames ++ Term.allDefinedNames operands
  | .conditional p c a => p.definedNames ++ (c.definedNames ++ a.definedNames)
  | .assignment _ value => value.definedNames
  | .definition target value => target :: value.definedNames
  | .sequence items => Term.allDefinedNames items
  | _ => []
termination_by structural t => t

def Term.allDefinedNames : List Term → List String
  | [] => []
  | item :: rest => item.definedNames ++ Term.allDefinedNames rest
termination_by structural ts => ts

end

theorem Term.mem_allDefinedNames {item : Term} {items : List Term} {name : String}
    (hitem : item ∈ items) (hname : name ∈ item.definedNames) :
    name ∈ Term.allDefinedNames items := by
  induction items with
  | nil => exact absurd hitem List.not_mem_nil
  | cons first rest ih =>
      rw [Term.allDefinedNames, List.mem_append]
      rcases List.mem_cons.mp hitem with rfl | hrest
      · exact Or.inl hname
      · exact Or.inr (ih hrest)

/-- The names that a task may add to a frame that is there. -/
def Task.gains : Task → FrameId → String → Prop
  | .eval _ term frame _ => fun id name => id = frame ∧ name ∈ term.definedNames
  | _ => fun _ _ => False

namespace Machine

theorem growthOrder (gains : FrameId → String → Prop) : Store.GrowthOrder (Store.Grows gains) where
  trans := Store.Grows.trans
  of_frames_eq := Store.Grows.of_frames_eq
  assign? := Store.Grows.assign
  push := Store.Grows.push

section Steps

open Run

/-- A closure is entered in a frame that was not there. -/
theorem frame_of_enter {params : List String} {home frame : FrameId} {arguments : List Term}
    {store after : Store}
    (henter : Run.enter params home arguments store = (.ok frame, after)) :
    frame = store.frames.size := by
  rw [Run.enter] at henter
  split_ifs at henter with hlength
  · cases henter
  · rw [Run.extend, if_neg hlength] at henter
    have houtcome := congrArg Prod.fst henter
    exact (Except.ok.inj houtcome).symm

variable {self : Task → Run Term}

/-- The parts of a node are evaluated in its frame and define no more than the node. -/
theorem moves_stepNode (hself : ∀ task, Moves (Store.Grows task.gains) (self task))
    (evaluator : EvaluatorId) (term : Term) (frame : FrameId) (depth : Nat) :
    Moves (Store.Grows (Task.eval evaluator term frame depth).gains)
      (stepNode self evaluator frame depth term) := by
  have horder := growthOrder (Task.eval evaluator term frame depth).gains
  have hpart : ∀ part : Term, (∀ name ∈ part.definedNames, name ∈ term.definedNames) →
      Moves (Store.Grows (Task.eval evaluator term frame depth).gains)
        (self (.eval evaluator part frame (depth + 1))) := by
    intro part hnames store
    apply (hself (.eval evaluator part frame (depth + 1)) store).mono
    intro id _ name hname
    exact ⟨hname.1, hnames name hname.2⟩
  cases term with
  | «variable» name => exact horder.lookup frame name
  | quoted value => exact horder.pure value
  | assignment target value =>
      apply horder.bind (hpart value fun _ hname => hname)
      exact fun value => horder.assign frame target value
  | definition target value =>
      apply horder.bind (hpart value fun _ => List.mem_cons_of_mem target)
      intro value store
      exact Store.Grows.define ⟨rfl, List.mem_cons_self⟩ store value
  | conditional p c a =>
      apply horder.bind (hpart p fun name hname => by simp [Term.definedNames, hname])
      intro condition
      split_ifs
      · exact hpart c fun name hname => by simp [Term.definedNames, hname]
      · exact hpart a fun name hname => by simp [Term.definedNames, hname]
  | sequence items =>
      apply horder.foldlM
      intro item hitem _
      exact hpart item fun _ => Term.mem_allDefinedNames hitem
  | lambda params body => exact horder.close params body frame (some evaluator)
  | application operator operands =>
      apply horder.bind (hpart operator fun _ => List.mem_append_left _)
      intro callee
      apply horder.bind
      · apply horder.mapM
        intro operand hoperand
        apply hpart operand
        intro name hname
        exact List.mem_append_right _ (Term.mem_allDefinedNames hoperand hname)
      · intro arguments store
        apply (hself (.apply evaluator callee arguments (depth + 1)) store).mono
        exact fun _ _ _ hname => hname.elim
  | _ => exact horder.fail _

/-- A closure runs in a frame of its own, so that its body gains no frame anything that was there
before. -/
theorem moves_closure (hself : ∀ task, Moves (Store.Grows task.gains) (self task))
    (evaluator : EvaluatorId) (params : List String) (body : Term) (home : FrameId)
    (arguments : List Term) (depth : Nat) (gains : FrameId → String → Prop) :
    Moves (Store.Grows gains) (do
      let frame ← Run.enter params home arguments
      self (.eval evaluator body frame depth)) := by
  have horder := growthOrder gains
  intro store
  have henter := horder.enter params home arguments store
  rcases houtcome : Run.enter params home arguments store with ⟨halt | frame, entered⟩
  · rw [bind_of_halt houtcome]
    rwa [houtcome] at henter
  · rw [bind_of_ok houtcome]
    rw [houtcome] at henter
    have hframe := frame_of_enter houtcome
    -- What the body defines goes to the new frame, which is not one of those that were there.
    apply henter.trans_of (hself (.eval evaluator body frame depth) entered)
    intro id hid name hname
    rw [hname.1, hframe] at hid
    exact absurd hid (Nat.lt_irrefl _)

theorem moves_step (hself : ∀ task, Moves (Store.Grows task.gains) (self task))
    (machine : Machine) {task : Task}
    (hpermits : permits (fun callable => !callable.bindsNames) task = true) :
    Moves (Store.Grows task.gains) (machine.step self task) := by
  have horder := growthOrder task.gains
  have hweaken : ∀ other : Task, other.gains = (fun _ _ => False) →
      Moves (Store.Grows task.gains) (self other) := by
    intro other hgains store
    apply (hself other store).mono
    intro id _ name hname
    rw [hgains] at hname
    exact hname.elim
  have hprimitive : ∀ callable arguments, (!callable.bindsNames) = true →
      Moves (Store.Grows task.gains) (machine.applyPrimitive self callable arguments) := by
    intro callable arguments hcallable
    rw [Bool.not_eq_true'] at hcallable
    exact horder.applyPrimitive machine (fun _ _ => hweaken _ rfl) (fun _ _ _ _ => hweaken _ rfl)
      hcallable arguments
  cases task with
  | eval evaluator term frame depth =>
      rw [step]
      split_ifs
      · split
        · exact horder.fail _
        · exact moves_stepNode hself evaluator term frame depth
      · exact horder.pure term
  | apply evaluator callee arguments depth =>
      unfold step
      cases callee with
      | closure id params body home owner =>
          exact moves_closure hself evaluator params body home arguments depth _
      | primitive callable =>
          apply horder.bind (horder.log _)
          intro _
          exact horder.atCallbackDepth evaluator depth (hprimitive callable arguments hpermits)
      | _ => exact horder.refuse _
  | call callee arguments =>
      unfold step
      cases callee with
      | closure id params body home owner =>
          apply horder.bind horder.get
          intro store
          exact hweaken _ rfl
      | primitive callable => exact hprimitive callable arguments hpermits
      | _ => exact horder.fail _

end Steps

theorem moves_runPermitted (machine : Machine) (bound : Nat) (task : Task) :
    Run.Moves (Store.Grows task.gains)
      (machine.runPermitted (fun callable => !callable.bindsNames) bound task) := by
  induction bound generalizing task with
  | zero => exact (growthOrder task.gains).halt _
  | succ bound ih =>
      rw [runPermitted]
      split_ifs with hpermits
      · exact moves_step ih machine hpermits
      · exact (growthOrder task.gains).halt _

/-- An assignment leaves every frame with the names that it has once its value is evaluated. -/
theorem names_assignment (self : Task → Run Term) (evaluator : EvaluatorId) (frame : FrameId)
    (depth : Nat) (target : String) (value : Term) (store : Store) (id : FrameId) :
    ((stepNode self evaluator frame depth (.assignment target value) store).2.bindings id).names =
      ((self (.eval evaluator value frame (depth + 1)) store).2.bindings id).names := by
  rw [stepNode]
  rcases houtcome : self (.eval evaluator value frame (depth + 1)) store with
    ⟨halt | result, after⟩
  · rw [Run.bind_of_halt houtcome]
  · rw [Run.bind_of_ok houtcome, Run.assign, Run.get_bind_apply]
    cases hassign : after.assign? frame target result with
    | none => rfl
    | some assigned => exact Store.names_assign? hassign id

/-- However an evaluation ends, the frames that were there keep their parents and their names.  Only
the frame that it was started in may have more, and these are defined by the expression itself. -/
theorem evaluate_names (machine : Machine) (bound : Nat) (evaluator : EvaluatorId) (term : Term)
    (frame : FrameId) (store : Store)
    (hrun : machine.AppliesOnly (fun callable => !callable.bindsNames) bound
      (.eval evaluator term frame (store.callbackDepth evaluator)) store) :
    store.frames.size ≤ (machine.evaluate bound evaluator term frame store).2.frames.size ∧
    (∀ id < store.frames.size,
      (machine.evaluate bound evaluator term frame store).2.parent? id = store.parent? id ∧
      ∃ added,
        ((machine.evaluate bound evaluator term frame store).2.bindings id).names =
          (store.bindings id).names ++ added ∧
        (id ≠ frame → added = []) ∧ ∀ name ∈ added, name ∈ term.definedNames) ∧
    ∀ (self : Task → Run Term) (evaluator : EvaluatorId) (frame : FrameId) (depth : Nat)
      (target : String) (value : Term) (store : Store) (id : FrameId),
      ((stepNode self evaluator frame depth (.assignment target value) store).2.bindings
        id).names = ((self (.eval evaluator value frame (depth + 1)) store).2.bindings id).names := by
  have hevaluate : machine.evaluate bound evaluator term frame store =
      machine.run bound (.eval evaluator term frame (store.callbackDepth evaluator)) store := rfl
  have hgrows := moves_runPermitted machine bound
    (.eval evaluator term frame (store.callbackDepth evaluator)) store
  rw [hrun, ← hevaluate] at hgrows
  refine ⟨hgrows.size, ?_, names_assignment⟩
  intro id hid
  refine ⟨hgrows.parent id hid, ?_⟩
  obtain ⟨added, hadded, hgains⟩ := hgrows.names id hid
  refine ⟨added, hadded, ?_, fun name hname => (hgains name hname).2⟩
  intro hne
  apply List.eq_nil_iff_forall_not_mem.mpr
  intro name hname
  exact hne (hgains name hname).1

/-- A machine whose host functions all call back what they are given. -/
def callbackMachine : Machine where
  host _ := HostProgram.invoke
  limit _ := none

/-- Defines a name, and lets a host function call a closure that defines another one in its own
frame and rebinds the first. -/
def callbackProgram : Term :=
  .sequence [.definition "count" (.int 0),
    .application (.quoted (.primitive (.host "invoke")))
      [.lambda ["n"] (.sequence [.definition "m" (.variable "n"),
        .assignment "count" (.variable "m")]), .int 2]]

def limitStore : Store where
  frames := #[{ bindings := [("limit", .int 1)] }]

theorem evaluate_names_callback :
    callbackMachine.AppliesOnly (fun callable => !callable.bindsNames) 9
      (.eval 0 callbackProgram 0 (limitStore.callbackDepth 0)) limitStore ∧
    ∃ added,
      ((callbackMachine.evaluate 9 0 callbackProgram 0 limitStore).2.bindings 0).names =
        (limitStore.bindings 0).names ++ added ∧
      ∀ name ∈ added, name ∈ callbackProgram.definedNames := by
  have hvalue : (callbackMachine.runPermitted (fun callable => !callable.bindsNames) 9
      (.eval 0 callbackProgram 0 (limitStore.callbackDepth 0)) limitStore).1 = .ok (.int 2) := by
    rfl
  have hrun := appliesOnly_of_finished hvalue (by simp)
  have hnames := evaluate_names callbackMachine 9 0 callbackProgram 0 limitStore hrun
  obtain ⟨added, hadded, _, hdefined⟩ := (hnames.2.1 0 (by decide)).2
  exact ⟨hrun, added, hadded, hdefined⟩

end Machine

end Rulebook
