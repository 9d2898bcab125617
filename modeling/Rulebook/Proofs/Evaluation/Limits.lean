import Rulebook.Proofs.Evaluation.Bounds
import Rulebook.Proofs.Evaluation.Definitions

/-!
# Limits on the nesting of nodes

A limit cuts an evaluation off and does nothing else.  So under a limit an evaluation is too deep,
or it is the evaluation without a limit, and then it is the evaluation under every larger limit as
well.  Two things could tell limits apart otherwise: a host function that goes on after one of its
callbacks was too deep, and a program that asks an evaluator for its limit.
-/

namespace Rulebook

def Fault.IsTooDeep (fault : Fault) : Prop :=
  ∃ limit, fault = .tooDeep limit

def Halt.IsTooDeep : Halt → Prop
  | .fault cause => cause.IsTooDeep
  | .unfinished => False

def Primitive.ignoresLimit : Primitive → List Term → Bool
  | .core .getProperty, .evaluator _ :: key :: _ => key.text? ≠ some "max_depth"
  | _, _ => true

namespace Machine

open Run

def withLimit (machine : Machine) (evaluator : EvaluatorId) (limit : Option Int) : Machine where
  host := machine.host
  limit other := if other = evaluator then limit else machine.limit other

section Attributes

variable {machine other : Machine}

theorem find?_evaluatorAttributes {name : String} (hname : name ≠ "max_depth") (store : Store)
    (evaluator : EvaluatorId) :
    Entries.find? (.str name) (Term.fieldsOf (machine.evaluatorAttributes store evaluator)) =
      Entries.find? (.str name) (Term.fieldsOf (other.evaluatorAttributes store evaluator)) := by
  have hne : (Scalar.str "max_depth").equal (.str name) = false :=
    beq_eq_false_iff_ne.2 (Ne.symm hname)
  simp [evaluatorAttributes, Term.fieldsOf, Entries.find?, List.find?_cons, hne]

theorem isSome_find?_evaluatorAttributes (name : String) (store : Store)
    (evaluator : EvaluatorId) :
    (Entries.find? (.str name)
        (Term.fieldsOf (machine.evaluatorAttributes store evaluator))).isSome =
      (Entries.find? (.str name)
        (Term.fieldsOf (other.evaluatorAttributes store evaluator))).isSome := by
  by_cases hname : name = "max_depth"
  · have heq : (Scalar.str "max_depth").equal (.str name) = true := by
      rw [hname]
      exact beq_self_eq_true _
    simp [evaluatorAttributes, Term.fieldsOf, Entries.find?, heq]
  · rw [find?_evaluatorAttributes hname]

theorem property?_evaluator {name : String} {key : Term} (hkey : key.text? = some name)
    (store : Store) (evaluator : EvaluatorId) :
    (machine.opened store (.evaluator evaluator)).property? key =
      .ok (Entries.find? (.str name)
        (Term.fieldsOf (machine.evaluatorAttributes store evaluator))) := by
  simp [opened, Term.property?, hkey, Term.attributes]

theorem property?_evaluator_of_none {key : Term} (hkey : key.text? = none) (store : Store)
    (evaluator : EvaluatorId) :
    (machine.opened store (.evaluator evaluator)).property? key = .error .unfit := by
  simp [opened, Term.property?, hkey]

theorem hasProperty_evaluator {store store' : Store} {evaluator : EvaluatorId}
    (hsome : ∀ name,
      (Entries.find? (.str name)
          (Term.fieldsOf (machine.evaluatorAttributes store evaluator))).isSome =
        (Entries.find? (.str name)
          (Term.fieldsOf (other.evaluatorAttributes store' evaluator))).isSome)
    (keys : List Term) :
    CorePrimitive.hasProperty.apply (machine.opened store (.evaluator evaluator) :: keys) =
      CorePrimitive.hasProperty.apply (other.opened store' (.evaluator evaluator) :: keys) := by
  match keys with
  | [] => rfl
  | _ :: _ :: _ => rfl
  | [key] =>
      rw [CorePrimitive.apply, CorePrimitive.apply]
      cases hkey : key.text? with
      | none => rw [property?_evaluator_of_none hkey, property?_evaluator_of_none hkey]
      | some name =>
          rw [property?_evaluator hkey, property?_evaluator hkey, Except.map, Except.map,
            hsome name]

/-- With all attributes the same but one, the properties are, unless that one is asked for. -/
theorem getProperty_evaluator {store store' : Store} {evaluator : EvaluatorId} {hidden : String}
    (hsame : ∀ name, name ≠ hidden →
      Entries.find? (.str name) (Term.fieldsOf (machine.evaluatorAttributes store evaluator)) =
        Entries.find? (.str name) (Term.fieldsOf (other.evaluatorAttributes store' evaluator)))
    {keys : List Term} (hkeys : ∀ key ∈ keys.head?, key.text? ≠ some hidden) :
    CorePrimitive.getProperty.apply (machine.opened store (.evaluator evaluator) :: keys) =
      CorePrimitive.getProperty.apply (other.opened store' (.evaluator evaluator) :: keys) := by
  have hproperty : ∀ key ∈ keys.head?,
      (machine.opened store (.evaluator evaluator)).property? key =
        (other.opened store' (.evaluator evaluator)).property? key := by
    intro key hhead
    cases hkey : key.text? with
    | none => rw [property?_evaluator_of_none hkey, property?_evaluator_of_none hkey]
    | some name =>
        have hname : name ≠ hidden := by
          rintro rfl
          exact hkeys key hhead hkey
        rw [property?_evaluator hkey, property?_evaluator hkey, hsame name hname]
  match keys with
  | [] => rfl
  | _ :: _ :: _ :: _ => rfl
  | [key] => rw [CorePrimitive.apply, CorePrimitive.apply, hproperty key rfl]
  | [key, default] => rw [CorePrimitive.apply, CorePrimitive.apply, hproperty key rfl]

theorem applyCore_congr {operation : CorePrimitive} {operands : List Term}
    (hignores : Primitive.ignoresLimit (.core operation) operands = true) :
    machine.applyCore operation operands = other.applyCore operation operands := by
  funext store
  cases operation with
  | hasProperty =>
      rcases operands with _ | ⟨term, keys⟩
      · rfl
      cases term with
      | evaluator evaluator =>
          refine congrArg (fun outcome => Run.ofExcept outcome store) ?_
          exact hasProperty_evaluator (isSome_find?_evaluatorAttributes · store evaluator) keys
      | _ => rfl
  | getProperty =>
      rcases operands with _ | ⟨term, keys⟩
      · rfl
      cases term with
      | evaluator evaluator =>
          have hkeys : ∀ key ∈ keys.head?, key.text? ≠ some "max_depth" := by
            cases keys with
            | nil => exact fun key hkey => absurd hkey (Option.not_mem_none key)
            | cons key rest =>
                rintro _ ⟨⟩
                simpa [Primitive.ignoresLimit] using hignores
          refine congrArg (fun outcome => Run.ofExcept outcome store) ?_
          exact getProperty_evaluator
            (fun _ hname => find?_evaluatorAttributes hname store evaluator) hkeys
      | _ => rfl
  | _ => rfl

end Attributes

section Limits

variable {machine : Machine} {evaluator : EvaluatorId} {limit : Int}

theorem exceeds_withLimit_self (limit : Option Int) (depth : Nat) :
    (machine.withLimit evaluator limit).exceeds evaluator depth =
      limit.filter fun limit : Int => limit < depth := by
  simp [exceeds, withLimit]

/-- A limit stops no evaluation before a smaller one has. -/
theorem exceeds_withLimit {larger : Option Int} (hlarger : ∀ other ∈ larger, limit ≤ other)
    (running : EvaluatorId) (depth : Nat) :
    (machine.withLimit evaluator (some limit)).exceeds running depth =
        (machine.withLimit evaluator larger).exceeds running depth ∨
      ∃ reached, (machine.withLimit evaluator (some limit)).exceeds running depth = some reached ∧
        Halt.IsTooDeep (.fault (.tooDeep reached)) := by
  by_cases hrunning : running = evaluator
  · subst hrunning
    rw [exceeds_withLimit_self, exceeds_withLimit_self]
    by_cases hdepth : limit < depth
    · right
      exact ⟨limit, by simp [hdepth], limit, rfl⟩
    · left
      have hnone : larger.filter (fun other : Int => other < depth) = none := by
        rw [Option.filter_eq_none_iff]
        intro other hother
        have hle := hlarger other hother
        simp only [decide_eq_true_eq]
        omega
      rw [hnone]
      simp only [Option.filter_some, hdepth, decide_false, Bool.false_eq_true, if_false]
  · left
    simp [exceeds, withLimit, hrunning]

theorem imitates_withLimit {larger : Option Int} (hlarger : ∀ other ∈ larger, limit ≤ other)
    (hhost : ∀ name arguments, (machine.host name arguments).Passes Fault.IsTooDeep) :
    Imitates Halt.IsTooDeep Primitive.ignoresLimit (machine.withLimit evaluator (some limit))
      (machine.withLimit evaluator larger) where
  host := rfl
  passes := hhost
  exceeds := exceeds_withLimit hlarger
  core _ _ := applyCore_congr

/-- Step by step, the run under a limit is the run under a larger one until it is too deep. -/
theorem follows_withLimit {larger : Option Int} (hlarger : ∀ other ∈ larger, limit ≤ other)
    (hhost : ∀ name arguments, (machine.host name arguments).Passes Fault.IsTooDeep) (bound : Nat)
    (task : Task) :
    Follows Halt.IsTooDeep
      ((machine.withLimit evaluator (some limit)).runWithin Primitive.ignoresLimit bound task)
      ((machine.withLimit evaluator larger).runWithin Primitive.ignoresLimit bound task) := by
  induction bound generalizing task with
  | zero => exact Follows.refl _
  | succ bound ih =>
      rw [runWithin, runWithin]
      split_ifs with hpermitted
      · exact follows_step (imitates_withLimit hlarger hhost) ih hpermitted
      · exact Follows.refl _

theorem EndsWithin.of_larger {larger : Option Int} (hlarger : ∀ other ∈ larger, limit ≤ other)
    (hhost : ∀ name arguments, (machine.host name arguments).Passes Fault.IsTooDeep) {bound : Nat}
    {task : Task} {store : Store}
    (hends : (machine.withLimit evaluator larger).EndsWithin Primitive.ignoresLimit bound task
      store) :
    (machine.withLimit evaluator (some limit)).EndsWithin Primitive.ignoresLimit bound task
      store := by
  rw [EndsWithin]
  rcases follows_withLimit hlarger hhost bound task store with ⟨halt, hdeep, hhalt⟩ | hsame
  · rw [hhalt]
    rintro ⟨⟩
    exact hdeep
  · rwa [hsame]

theorem run_withLimit {larger : Option Int} (hlarger : ∀ other ∈ larger, limit ≤ other)
    (hhost : ∀ name arguments, (machine.host name arguments).Passes Fault.IsTooDeep) {bound : Nat}
    {task : Task} {store : Store}
    (hends : (machine.withLimit evaluator (some limit)).EndsWithin Primitive.ignoresLimit bound
      task store) :
    (∃ reached, ((machine.withLimit evaluator (some limit)).run bound task store).1 =
        .error (.fault (.tooDeep reached))) ∨
      (machine.withLimit evaluator larger).run bound task store =
        (machine.withLimit evaluator (some limit)).run bound task store := by
  rcases follows_withLimit hlarger hhost bound task store with ⟨halt, hdeep, hhalt⟩ | hsame
  · cases halt with
    | unfinished => exact absurd hhalt hends
    | fault fault =>
        obtain ⟨reached, rfl⟩ := hdeep
        exact Or.inl ⟨reached, by rw [hends.run_eq, hhalt]⟩
  · have hlargerEnds : (machine.withLimit evaluator larger).EndsWithin Primitive.ignoresLimit
        bound task store := by
      rwa [EndsWithin, ← hsame]
    right
    rw [hends.run_eq, hlargerEnds.run_eq, hsame]

end Limits

/-- Under a limit an evaluation is too deep, or it does all that it does without a limit, whichever
of the two is known to end.  If it is not too deep, it does the same under every larger limit. -/
theorem evaluate_withLimit (machine : Machine) (evaluator : EvaluatorId) (term : Term)
    (frame : FrameId) (store : Store) (limit : Int) (bound : Nat)
    (hhost : ∀ name arguments, (machine.host name arguments).Passes Fault.IsTooDeep)
    (hends : (machine.withLimit evaluator (some limit)).EndsWithin Primitive.ignoresLimit bound
        (.eval evaluator term frame (store.callbackDepth evaluator)) store ∨
      (machine.withLimit evaluator none).EndsWithin Primitive.ignoresLimit bound
        (.eval evaluator term frame (store.callbackDepth evaluator)) store) :
    ((∃ reached, ((machine.withLimit evaluator (some limit)).evaluate bound evaluator term frame
          store).1 = .error (.fault (.tooDeep reached))) ∨
      (machine.withLimit evaluator none).evaluate bound evaluator term frame store =
        (machine.withLimit evaluator (some limit)).evaluate bound evaluator term frame store) ∧
    ((∀ reached, ((machine.withLimit evaluator (some limit)).evaluate bound evaluator term frame
          store).1 ≠ .error (.fault (.tooDeep reached))) →
      ∀ larger : Option Int, (∀ other ∈ larger, limit ≤ other) →
        (machine.withLimit evaluator larger).evaluate bound evaluator term frame store =
          (machine.withLimit evaluator (some limit)).evaluate bound evaluator term frame
            store) := by
  have hnone : ∀ other ∈ (none : Option Int), limit ≤ other :=
    fun other hother => absurd hother (Option.not_mem_none other)
  have hlimited := hends.elim id fun hfree => hfree.of_larger hnone hhost
  constructor
  · exact run_withLimit hnone hhost hlimited
  · intro hdeep larger hlarger
    rcases run_withLimit hlarger hhost hlimited with ⟨reached, hreached⟩ | hsame
    · exact absurd hreached (hdeep reached)
    · exact hsame

/-- The callback of the program needs a limit of four nested nodes, and more change nothing. -/
theorem evaluate_withLimit_callback :
    ((callbackMachine.withLimit 0 (some 3)).evaluate 9 0 callbackProgram 0 limitStore).1 =
      .error (.fault (.tooDeep 3)) ∧
    ∀ larger : Option Int, (∀ other ∈ larger, 4 ≤ other) →
      ((callbackMachine.withLimit 0 larger).evaluate 9 0 callbackProgram 0 limitStore).1 =
        .ok (.int 2) := by
  have hhost : ∀ name arguments,
      (callbackMachine.host name arguments).Passes Fault.IsTooDeep := by
    intro name arguments
    cases arguments with
    | nil => trivial
    | cons callee rest => exact ⟨fun _ _ => rfl, fun _ => trivial⟩
  have hvalue : ((callbackMachine.withLimit 0 (some 4)).runWithin Primitive.ignoresLimit 9
      (.eval 0 callbackProgram 0 (limitStore.callbackDepth 0)) limitStore).1 = .ok (.int 2) := by
    rfl
  have hends : (callbackMachine.withLimit 0 (some 4)).EndsWithin Primitive.ignoresLimit 9
      (.eval 0 callbackProgram 0 (limitStore.callbackDepth 0)) limitStore := by
    rw [EndsWithin, hvalue]
    simp
  have heval : ((callbackMachine.withLimit 0 (some 4)).evaluate 9 0 callbackProgram 0
      limitStore).1 = .ok (.int 2) := by
    rfl
  refine ⟨rfl, ?_⟩
  intro larger hlarger
  have hsame := (evaluate_withLimit callbackMachine 0 callbackProgram 0 limitStore 4 9 hhost
    (Or.inl hends)).2 (by rw [heval]; simp) larger hlarger
  rw [hsame, heval]

end Machine

end Rulebook
