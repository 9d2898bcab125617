import Rulebook.Primitive.Registry
import Rulebook.Proofs.Condition.RoundTrip
import Rulebook.Proofs.Evaluation.Calls
import Rulebook.Proofs.Rule.Firing

/-!
# Conditions that are Boolean formulas

A formula joins names of variables by `AND`, `OR` and `NOT`.  Written as the condition of a rule it
decides as classical logic does whether the rule fires.  Three layers agree on this: the reader on
how the text is grouped, and the logical operations and the rule on which values are false.

All operands are evaluated, since the logical operations do not stop early, but in formulas these
are only looked up.
-/

namespace Rulebook

open Runner (firingRule plainRunner)
open Condition (Keyword Tree VariableName)

inductive Formula where
  | named (name : VariableName)
  | not (operand : Formula)
  | joined (keyword : Keyword) (first second : Formula) (others : List Formula)

namespace Formula

mutual

def tree : Formula → Tree
  | .named name => .named name
  | .not operand => .not operand.tree
  | .joined keyword first second others =>
    .joined keyword first.tree second.tree (trees others)
termination_by structural formula => formula

def trees : List Formula → List Tree
  | [] => []
  | formula :: rest => formula.tree :: trees rest
termination_by structural formulas => formulas

end

/-- The text of a formula, with parentheses only where they are needed. -/
def text (formula : Formula) : String :=
  String.ofList formula.tree.print

def term (formula : Formula) : Term :=
  formula.tree.toTerm

mutual

def holds (assignment : String → Bool) : Formula → Bool
  | .named name => assignment name.name
  | .not operand => !operand.holds assignment
  | .joined .and first second others =>
    first.holds assignment && second.holds assignment && (truths assignment others).all id
  | .joined .or first second others =>
    first.holds assignment || second.holds assignment || (truths assignment others).any id
termination_by structural formula => formula

def truths (assignment : String → Bool) : List Formula → List Bool
  | [] => []
  | formula :: rest => formula.holds assignment :: truths assignment rest
termination_by structural formulas => formulas

end

mutual

def names : Formula → List String
  | .named name => [name.name]
  | .not operand => operand.names
  | .joined _ first second others => first.names ++ (second.names ++ allNames others)
termination_by structural formula => formula

def allNames : List Formula → List String
  | [] => []
  | formula :: rest => formula.names ++ allNames rest
termination_by structural formulas => formulas

end

mutual

def height : Formula → Nat
  | .named _ => 1
  | .not operand => operand.height + 1
  | .joined _ first second others =>
    max first.height (max second.height (maxHeight others)) + 1
termination_by structural formula => formula

def maxHeight : List Formula → Nat
  | [] => 0
  | formula :: rest => max formula.height (maxHeight rest)
termination_by structural formulas => formulas

end

theorem height_pos (formula : Formula) : 0 < formula.height := by
  cases formula <;> simp [height]

end Formula

/-! ## Logic in the store -/

namespace Store

/-- Some frame in reach holds the logical operations, and none binds their names to anything
else. -/
structure KeepsLogic (store : Store) (frame : FrameId) : Prop where
  holds : ∃ root ∈ store.chain frame, ∀ operation ∈ [CorePrimitive.and, .or, .not],
    (store.bindings root).value? operation.name = some (.primitive (.core operation))
  only : ∀ other ∈ store.chain frame, ∀ operation ∈ [CorePrimitive.and, .or, .not], ∀ value,
    (store.bindings other).value? operation.name = some value →
      value = .primitive (.core operation)

theorem KeepsLogic.lookup? {store : Store} {frame : FrameId} (hlogic : store.KeepsLogic frame)
    {operation : CorePrimitive} (hoperation : operation ∈ [CorePrimitive.and, .or, .not]) :
    store.lookup? frame operation.name = some (.primitive (.core operation)) := by
  obtain ⟨root, hroot, hholds⟩ := hlogic.holds
  have hbinds : (store.bindings root).binds operation.name = true := by
    rw [Bindings.binds_eq_isSome_value?, hholds operation hoperation]
    rfl
  have hfind : (store.find? frame operation.name).isSome := by
    rw [find?, List.find?_isSome]
    exact ⟨root, hroot, hbinds⟩
  obtain ⟨found, hfound⟩ := Option.isSome_iff_exists.mp hfind
  have hbinds' := binds_of_find? hfound
  rw [Bindings.binds_eq_isSome_value?] at hbinds'
  obtain ⟨value, hvalue⟩ := Option.isSome_iff_exists.mp hbinds'
  rw [Store.lookup?, hfound, Option.bind_some, hvalue,
    hlogic.only found (mem_chain_of_find? hfound) operation hoperation value hvalue]

/-- Which names are bound to something that is not false. -/
def truth (store : Store) (frame : FrameId) (name : String) : Bool :=
  (store.lookup? frame name).any Term.isTruthy

end Store

/-! ## Evaluation -/

namespace CorePrimitive

variable {values : List Term} {truth : Bool} {truths : List Bool}

theorem apply_not (hvalues : values.map Term.isTruthy = [truth]) :
    CorePrimitive.not.apply values = .ok (.bool !truth) := by
  obtain ⟨value, rest, rfl, rfl, hrest⟩ := List.map_eq_cons_iff.mp hvalues
  rw [List.map_eq_nil_iff.mp hrest]
  rfl

theorem apply_and (hvalues : values.map Term.isTruthy = truths) :
    CorePrimitive.and.apply values = .ok (.bool (truths.all id)) := by
  rw [← hvalues, List.all_map]
  rfl

theorem apply_or (hvalues : values.map Term.isTruthy = truths) :
    CorePrimitive.or.apply values = .ok (.bool (truths.any id)) := by
  rw [← hvalues, List.any_map]
  rfl

end CorePrimitive

section Evaluation

variable {machine : Machine} {evaluator : EvaluatorId} {frame : FrameId} {base : Store}

/-- A call of a logical operation is as true as the operation makes of its operands. -/
theorem Machine.yields_logical {operation : CorePrimitive} {operands : List Term}
    {depth bound : Nat} {truths : List Bool} {truth : Bool} (hlimit : machine.limit evaluator = none)
    (hlogic : base.KeepsLogic frame) (hoperation : operation ∈ [CorePrimitive.and, .or, .not])
    (happly : ∀ values : List Term, values.map Term.isTruthy = truths →
      operation.apply values = .ok (.bool truth)) (hbound : 0 < bound)
    (hoperands : Run.Yields base.frames (operands.mapM fun operand =>
      machine.run bound (.eval evaluator operand frame (depth + 1)))
        fun values => values.map Term.isTruthy = truths) :
    Run.Yields base.frames
      (machine.run (bound + 1) (.eval evaluator (.call operation.name operands) frame depth))
      fun value => value.isTruthy = truth := by
  have hblind : operation ∉ [CorePrimitive.hasProperty, .getProperty] := by
    simp only [List.mem_cons, List.not_mem_nil, or_false] at hoperation
    rcases hoperation with rfl | rfl | rfl <;> decide
  apply yields_call operation hlimit hblind (hlogic.lookup? hoperation) hbound hoperands
  intro values hvalues
  exact ⟨.bool truth, happly values hvalues, by cases truth <;> rfl⟩

theorem Run.yields_truths {f : Term → Run Term} {frames : Array Frame} {item : Term}
    {items : List Term} {truth : Bool} {truths : List Bool}
    (hitem : Yields frames (f item) fun value => value.isTruthy = truth)
    (hitems : Yields frames (items.mapM f) fun values => values.map Term.isTruthy = truths) :
    Yields frames ((item :: items).mapM f)
      fun values => values.map Term.isTruthy = truth :: truths := by
  apply (hitem.mapM_cons hitems).mono
  rintro _ ⟨value, rest, rfl, hvalue, hrest⟩
  rw [List.map_cons, hvalue, hrest]

namespace Formula

theorem exists_le_of_height_le {n bound : Nat} (hheight : n + 1 ≤ bound) :
    ∃ smaller, bound = smaller + 1 ∧ n ≤ smaller :=
  ⟨bound - 1, by omega, by omega⟩

mutual

/-- Evaluating a formula gives a value that is as true as the formula. -/
theorem yields (hlimit : machine.limit evaluator = none) (hlogic : base.KeepsLogic frame)
    (formula : Formula) (hnames : ∀ name ∈ formula.names, (base.lookup? frame name).isSome)
    {bound : Nat} (hbound : formula.height ≤ bound) (depth : Nat) :
    Run.Yields base.frames (machine.run bound (.eval evaluator formula.term frame depth))
      fun value => value.isTruthy = formula.holds (base.truth frame) := by
  match formula with
  | .named name =>
      intro store hstore
      obtain ⟨smaller, rfl⟩ := Nat.exists_eq_add_of_le' hbound
      obtain ⟨value, hvalue⟩ := Option.isSome_iff_exists.mp (hnames name.name List.mem_cons_self)
      have hfound := (Store.lookup?_of_frames_eq hstore frame name.name).trans hvalue
      refine ⟨value, store, Machine.run_variable hlimit hfound smaller depth, ?_, .refl store⟩
      rw [holds, Store.truth, hvalue]
      rfl
  | .not operand =>
      obtain ⟨smaller, rfl, hsmaller⟩ := exists_le_of_height_le hbound
      have hoperand := yields hlimit hlogic operand hnames hsmaller (depth + 1)
      have hnot : CorePrimitive.not ∈ [CorePrimitive.and, .or, .not] := by decide
      exact Machine.yields_logical hlimit hlogic hnot (fun values => CorePrimitive.apply_not)
        (Nat.lt_of_lt_of_le operand.height_pos hsmaller)
        (Run.yields_truths hoperand (Run.yields_pure rfl))
  | .joined keyword first second others =>
      obtain ⟨smaller, rfl, hsmaller⟩ := exists_le_of_height_le hbound
      rw [Nat.max_le, Nat.max_le] at hsmaller
      rw [names, List.forall_mem_append, List.forall_mem_append] at hnames
      have hfirst := yields hlimit hlogic first hnames.1 hsmaller.1 (depth + 1)
      have hsecond := yields hlimit hlogic second hnames.2.1 hsmaller.2.1 (depth + 1)
      have hothers := yieldsEach hlimit hlogic others hnames.2.2 hsmaller.2.2 (depth + 1)
      have hoperands := Run.yields_truths hfirst (Run.yields_truths hsecond hothers)
      have hpos : 0 < smaller := Nat.lt_of_lt_of_le first.height_pos hsmaller.1
      cases keyword with
      | and =>
          have hand : CorePrimitive.and ∈ [CorePrimitive.and, .or, .not] := by decide
          rw [holds, Bool.and_assoc]
          exact Machine.yields_logical hlimit hlogic hand
            (fun values => CorePrimitive.apply_and) hpos hoperands
      | or =>
          have hor : CorePrimitive.or ∈ [CorePrimitive.and, .or, .not] := by decide
          rw [holds, Bool.or_assoc]
          exact Machine.yields_logical hlimit hlogic hor
            (fun values => CorePrimitive.apply_or) hpos hoperands
termination_by structural formula

theorem yieldsEach (hlimit : machine.limit evaluator = none) (hlogic : base.KeepsLogic frame)
    (formulas : List Formula)
    (hnames : ∀ name ∈ allNames formulas, (base.lookup? frame name).isSome)
    {bound : Nat} (hbound : maxHeight formulas ≤ bound) (depth : Nat) :
    Run.Yields base.frames
      ((Tree.toTerms (trees formulas)).mapM fun operand =>
        machine.run bound (.eval evaluator operand frame depth))
      fun values => values.map Term.isTruthy = truths (base.truth frame) formulas := by
  match formulas with
  | [] => exact Run.yields_pure rfl
  | formula :: rest =>
      rw [allNames, List.forall_mem_append] at hnames
      rw [maxHeight, Nat.max_le] at hbound
      exact Run.yields_truths (yields hlimit hlogic formula hnames.1 hbound.1 depth)
        (yieldsEach hlimit hlogic rest hnames.2 hbound.2 depth)
termination_by structural formulas

end

end Formula

end Evaluation

/-- A rule whose condition is the text of a formula evaluates its action exactly if the formula is
true, where a variable is true unless it is bound to something that is false. -/
theorem Runner.applyRule_formula (runner : Runner) {frame : FrameId} {store : Store}
    (formula : Formula) (hlimit : runner.machine.limit runner.evaluator = none)
    (hlogic : store.KeepsLogic frame)
    (hnames : ∀ name ∈ formula.names, (store.lookup? frame name).isSome)
    (hbound : formula.height ≤ runner.bound) :
    ∃ condition, Condition.ofTerm (.str formula.text) = .ok condition ∧
      ∃ value after, runner.evaluate condition frame store = (.ok value, after) ∧
        value.isTruthy = formula.holds (store.truth frame) ∧ store.Logs after ∧
        ∀ rule : Rule, rule.condition = condition →
          runner.applyRule rule frame store =
            if formula.holds (store.truth frame) then
              runner.evaluate rule.action frame (after.log (.ruleFired rule.id))
            else (.ok .null, after.log (.rulePassed rule.id)) := by
  have hread : Condition.ofTerm (.str formula.text) = .ok formula.tree.toTerm := by
    have hprint := Condition.read_print formula.tree
    simpa [Condition.ofTerm, Term.text?, Formula.text] using hprint
  have hyields := formula.yields hlimit hlogic hnames hbound
    (store.callbackDepth runner.evaluator) store rfl
  obtain ⟨value, after, hrun, htruth, hlogs⟩ := hyields
  have hvalue : runner.evaluate formula.term frame store = (.ok value, after) := hrun
  refine ⟨formula.term, hread, value, after, hvalue, htruth, hlogs, ?_⟩
  intro rule hcondition
  rw [Runner.applyRule, hcondition, Run.bind_of_ok hvalue, htruth]
  split_ifs
  · rfl
  · rfl

def Formula.exclusion : Formula :=
  .joined .and (.named ⟨"a", by decide, by decide, by decide⟩)
    (.not (.joined .or (.named ⟨"b", by decide, by decide, by decide⟩)
      (.named ⟨"c", by decide, by decide, by decide⟩) [])) []

/-- A root frame with the core primitives, where zero is true and `null` is false. -/
def exclusionStore : Store :=
  (Registry.core.bootstrap [("a", .int 0), ("b", .null), ("c", .bool false)] {}).2

theorem keepsLogic_exclusionStore : exclusionStore.KeepsLogic 0 where
  holds := by
    refine ⟨0, List.mem_cons_self, ?_⟩
    simp only [List.forall_mem_cons]
    exact ⟨rfl, rfl, rfl, fun _ hnone => absurd hnone List.not_mem_nil⟩
  only other hother := by
    have hroot : exclusionStore.chain 0 = [0] := rfl
    rw [hroot, List.mem_singleton] at hother
    subst hother
    simp only [List.forall_mem_cons]
    refine ⟨?_, ?_, ?_, fun _ hnone => absurd hnone List.not_mem_nil⟩ <;>
      exact fun value hvalue => (Option.some.inj hvalue).symm

theorem Runner.applyRule_formula_exclusion :
    Formula.exclusion.text = "a AND NOT (b OR c)" ∧
    ∃ condition, Condition.ofTerm (.str Formula.exclusion.text) = .ok condition ∧
      ∃ after, ({ plainRunner with bound := 4 } : Runner).applyRule
        { firingRule "exclusion" (.str "only a") with condition := condition } 0 exclusionStore =
          (.ok (.str "only a"), after) := by
  obtain ⟨condition, hread, value, after, -, -, -, hrule⟩ :=
    Runner.applyRule_formula { plainRunner with bound := 4 } Formula.exclusion rfl
      keepsLogic_exclusionStore (by decide) (by decide)
  exact ⟨rfl, condition, hread, _, hrule _ rfl⟩

end Rulebook
