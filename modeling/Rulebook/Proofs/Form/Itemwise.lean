import Rulebook.Proofs.Evaluation.Calls
import Rulebook.Proofs.Evaluation.Deepening
import Rulebook.Proofs.Evaluation.Together
import Rulebook.Proofs.Form.Meaning
import Rulebook.Proofs.Form.Reading

/-!
# Lists are evaluated item by item

A list of data is read as a literal or as a call of `list`, whichever its items need, and this is
decided anew for each list in it.  It makes no difference: at any nesting, a list is evaluated by
evaluating what it holds besides lists, from left to right, and listing the values in the same
shape.  The items are deeper inside of a call than they are on their own, which nobody notices who
does not ask the evaluator for its callback depth.
-/

namespace Rulebook
namespace Form

/-! ## Nested lists -/

mutual

/-- What nested lists hold besides lists, from left to right. -/
def leaves : Term → List Term
  | .list items => allLeaves items
  | data => [data]
termination_by structural t => t

def allLeaves : List Term → List Term
  | [] => []
  | item :: rest => leaves item ++ allLeaves rest
termination_by structural ts => ts

end

mutual

/-- Evaluates the leaves of nested lists one after another and lists the values in the same
shape. -/
def itemwise (evaluate : Term → Run Term) : Term → Run Term
  | .list items => do
    let values ← itemwiseAll evaluate items
    pure (.list values)
  | data => evaluate data
termination_by structural t => t

def itemwiseAll (evaluate : Term → Run Term) : List Term → Run (List Term)
  | [] => pure []
  | item :: rest => do
    let value ← itemwise evaluate item
    let values ← itemwiseAll evaluate rest
    pure (value :: values)
termination_by structural ts => ts

end

end Form

namespace Machine

/-- Evaluates what data is read as.  Data that is not accepted has no value. -/
def evaluateData (machine : Machine) (bound : Nat) (evaluator : EvaluatorId) (frame : FrameId)
    (data : Term) : Run Term :=
  match Form.read data with
  | .ok tree => machine.evaluate bound evaluator tree frame
  | .error _ => throw .unfinished

/-- Something holds of each piece of data in the store in which it is evaluated, if they are
evaluated one after another. -/
def Throughout (machine : Machine) (evaluator : EvaluatorId) (frame : FrameId)
    (good : Term → Store → Prop) : List Term → Store → Prop
  | [], _ => True
  | data :: rest, store => good data store ∧ ∀ bound value after,
      machine.evaluateData bound evaluator frame data store = (.ok value, after) →
        machine.Throughout evaluator frame good rest after

def IgnoresDepthOf (machine : Machine) (evaluator : EvaluatorId) (frame : FrameId) (data : Term)
    (store : Store) : Prop :=
  ∀ tree, Form.read data = .ok tree → machine.Heeds (Task.ignoresDepth evaluator)
    (.eval evaluator tree frame (store.callbackDepth evaluator)) store

end Machine

namespace Form

open Run Store

section Shape

variable {data : Term} {evaluate : Term → Run Term}

theorem leaves_of_ne_list (hdata : ∀ items, data ≠ .list items) : leaves data = [data] := by
  cases data <;> first | rfl | exact absurd rfl (hdata _)

theorem itemwise_of_ne_list (hdata : ∀ items, data ≠ .list items) :
    itemwise evaluate data = evaluate data := by
  cases data <;> first | rfl | exact absurd rfl (hdata _)

theorem exists_of_read_list {items : List Term} {tree : Term}
    (hread : read (.list items) = .ok tree) :
    ∃ trees, List.Forall₂ (fun item tree => read item = .ok tree) items trees ∧
      tree = ofItems trees := by
  rw [read] at hread
  obtain ⟨trees, htrees, htree⟩ := exists_of_bind_eq_ok hread
  rw [readAll_eq_mapM] at htrees
  cases htree
  exact ⟨trees, forall₂_of_mapM htrees, rfl⟩

/-- A list of terms is an expression of one of two kinds. -/
theorem ofItems_cases (trees : List Term) :
    (ofItems trees = .call "list" trees ∧ ∃ tree ∈ trees, tree.isNode = true) ∨
      (ofItems trees = .list trees ∧ ∀ tree ∈ trees, tree.isNode = false) := by
  rw [ofItems]
  split_ifs with hany
  · exact .inl ⟨rfl, List.any_eq_true.mp hany⟩
  · rw [Bool.not_eq_true, List.any_eq_false] at hany
    exact .inr ⟨rfl, fun tree htree => Bool.eq_false_iff.mpr (hany tree htree)⟩

theorem allLeaves_eq_flatMap (items : List Term) : allLeaves items = items.flatMap leaves := by
  induction items with
  | nil => rfl
  | cons item rest ih => rw [allLeaves, ih, List.flatMap_cons]

end Shape

/-- What holds of data that is no list, and of lists whose items it holds of, holds of all data. -/
theorem nested_induct {p : Term → Prop} (hleaf : ∀ data, (∀ items, data ≠ .list items) → p data)
    (hlist : ∀ items, (∀ item ∈ items, p item) → p (.list items)) (data : Term) : p data := by
  induction data using Term.contents_induct with
  | h data ih =>
      cases data with
      | list items => exact hlist items fun item hitem => ih item hitem
      | _ => exact hleaf _ (by simp)

/-- All leaves of accepted data are accepted. -/
theorem exists_read_of_mem_leaves {data tree : Term} (hread : read data = .ok tree) {leaf : Term}
    (hleaf : leaf ∈ leaves data) : ∃ expression, read leaf = .ok expression := by
  induction data using nested_induct generalizing tree with
  | hleaf data hdata =>
      rw [leaves_of_ne_list hdata, List.mem_singleton] at hleaf
      exact ⟨tree, hleaf ▸ hread⟩
  | hlist items ih =>
      obtain ⟨trees, htrees, -⟩ := exists_of_read_list hread
      rw [leaves, allLeaves_eq_flatMap, List.mem_flatMap] at hleaf
      obtain ⟨item, hitem, hleaf⟩ := hleaf
      obtain ⟨tree, -, htree⟩ := exists_of_mem_right htrees.flip hitem
      exact ih item hitem htree hleaf

/-- Nested lists without leaves are read as literals. -/
theorem leaves_ne_nil {data tree : Term} (hread : read data = .ok tree)
    (hnode : tree.isNode = true) : leaves data ≠ [] := by
  induction data using nested_induct generalizing tree with
  | hleaf data hdata =>
      rw [leaves_of_ne_list hdata]
      exact List.cons_ne_nil data []
  | hlist items ih =>
      obtain ⟨trees, htrees, rfl⟩ := exists_of_read_list hread
      obtain ⟨-, tree, htree, hitem⟩ | ⟨hliteral, -⟩ := ofItems_cases trees
      · obtain ⟨item, hmem, hread⟩ := exists_of_mem_right htrees htree
        rw [leaves, allLeaves_eq_flatMap, ne_eq, List.flatMap_eq_nil_iff]
        exact fun hnil => ih item hmem hread hitem (hnil item hmem)
      · rw [hliteral] at hnode
        cases hnode

section Evaluations

variable {machine : Machine} {evaluator : EvaluatorId} {frame : FrameId} {data tree : Term}
  {first second : Store}

/-! ## Bounds -/

theorem widens_run (machine : Machine) (task : Task) : Widens (machine.run · task) :=
  fun _ _ hle => machine.below_run hle task

theorem widens_evaluateData (data : Term) :
    Widens (machine.evaluateData · evaluator frame data) := by
  unfold Machine.evaluateData
  cases read data with
  | ok tree => exact (widens_const get).bind fun store => widens_run machine _
  | error problem => exact widens_const _

theorem widens_items {items : List Term} (hitems : ∀ item ∈ items,
      Widens fun bound => itemwise (machine.evaluateData bound evaluator frame) item) :
    Widens fun bound => itemwiseAll (machine.evaluateData bound evaluator frame) items := by
  induction items with
  | nil => exact widens_const _
  | cons item rest ih =>
      rw [List.forall_mem_cons] at hitems
      simp only [itemwiseAll]
      exact hitems.1.bind fun _ => (ih hitems.2).bind fun _ => widens_const _

theorem widens_itemwise (data : Term) :
    Widens fun bound => itemwise (machine.evaluateData bound evaluator frame) data := by
  induction data using nested_induct with
  | hleaf data hdata =>
      simp only [itemwise_of_ne_list hdata]
      exact widens_evaluateData data
  | hlist items ih =>
      simp only [itemwise]
      exact (widens_items ih).bind fun _ => widens_const _

theorem widens_itemwiseAll (items : List Term) :
    Widens fun bound => itemwiseAll (machine.evaluateData bound evaluator frame) items :=
  widens_items fun item _ => widens_itemwise item

/-! ## What holds throughout -/

section Throughout

variable {good : Term → Store → Prop} {store after : Store} {rest : List Term}

theorem throughout_of_append {front : List Term}
    (hgood : machine.Throughout evaluator frame good (front ++ rest) store) :
    machine.Throughout evaluator frame good front store := by
  induction front generalizing store with
  | nil => trivial
  | cons data front ih =>
      exact ⟨hgood.1, fun bound value after hrun => ih (hgood.2 bound value after hrun)⟩

/-- What holds throughout still holds of the rest when nested lists have been evaluated. -/
theorem throughout_of_itemwise (hgood : machine.Throughout evaluator frame good
      (leaves data ++ rest) store) {bound : Nat} {value : Term}
    (hrun : itemwise (machine.evaluateData bound evaluator frame) data store = (.ok value, after)) :
    machine.Throughout evaluator frame good rest after := by
  induction data using nested_induct generalizing store after value rest with
  | hleaf data hdata =>
      rw [leaves_of_ne_list hdata] at hgood
      rw [itemwise_of_ne_list hdata] at hrun
      exact hgood.2 bound value after hrun
  | hlist items ih =>
      rw [leaves] at hgood
      rw [itemwise] at hrun
      obtain ⟨values, last, hvalues, hpure⟩ := bind_eq_ok hrun
      cases hpure
      clear hrun
      induction items generalizing store values with
      | nil =>
          cases hvalues
          exact hgood
      | cons item others ihrest =>
          rw [List.forall_mem_cons] at ih
          rw [allLeaves, List.append_assoc] at hgood
          rw [itemwiseAll] at hvalues
          obtain ⟨value, middle, hitem, hothers⟩ := bind_eq_ok hvalues
          obtain ⟨values, last', hothers, hpure⟩ := bind_eq_ok hothers
          cases hpure
          exact ihrest ih.2 (ih.1 hgood hitem) values hothers

end Throughout

/-! ## The parts of an evaluation -/

theorem evaluateData_of_read (hread : read data = .ok tree) (bound : Nat) :
    machine.evaluateData bound evaluator frame data =
      machine.evaluate bound evaluator tree frame := by
  rw [Machine.evaluateData, hread]

theorem itemwise_literal (hread : read data = .ok tree) (hnode : tree.isNode = false)
    (bound : Nat) : itemwise (machine.evaluateData (bound + 1) evaluator frame) data =
      pure tree := by
  induction data using nested_induct generalizing tree with
  | hleaf data hdata =>
      rw [itemwise_of_ne_list hdata, evaluateData_of_read hread]
      funext store
      exact congrFun (Machine.step_data hnode (machine.run bound) _) store
  | hlist items ih =>
      obtain ⟨trees, htrees, rfl⟩ := exists_of_read_list hread
      obtain ⟨hcall, -⟩ | ⟨hliteral, hany⟩ := ofItems_cases trees
      · rw [hcall] at hnode
        cases hnode
      have hitems : itemwiseAll (machine.evaluateData (bound + 1) evaluator frame) items =
          pure trees := by
        clear hread hnode hliteral
        induction htrees with
        | nil => rfl
        | cons hitem hrest ihrest =>
            rw [List.forall_mem_cons] at ih hany
            rw [itemwiseAll, ih.1 hitem hany.1, ihrest ih.2 hany.2]
            rfl
      rw [itemwise, hitems, hliteral]
      rfl

/-- Data that is read as a literal has the same value item by item. -/
theorem together_literal (hread : read data = .ok tree) (hnode : tree.isNode = false)
    (hstores : first.Gathered second) (depth : Nat) :
    Together (fun bound => itemwise (machine.evaluateData bound evaluator frame) data)
      (machine.run · (.eval evaluator tree frame depth)) first second := by
  have hrun : itemwise (machine.evaluateData 1 evaluator frame) data first = (.ok tree, first) := by
    rw [itemwise_literal hread hnode]
    rfl
  have hother : machine.run 1 (.eval evaluator tree frame depth) second = (.ok tree, second) := by
    rw [Machine.run, Machine.step_data hnode]
    rfl
  exact together_of_ends (widens_itemwise data) (widens_run machine _) 1 1 hrun hother
    (ok_ne_unfinished tree) hstores

/-- A leaf that does not ask for the callback depth is the same however deep it is. -/
theorem together_leaf (hlimit : machine.limit evaluator = none) (hread : read data = .ok tree)
    (hignores : machine.IgnoresDepthOf evaluator frame data first)
    (hstores : first.Gathered second) (depth : Nat) :
    Together (machine.evaluateData · evaluator frame data)
      (machine.run · (.eval evaluator tree frame depth)) first second := by
  have hapart : Store.Apart evaluator first.trace.toList second.trace.toList first second := {
    frames := hstores.frames
    closures := hstores.closures
    notes := hstores.notes
    depths := fun other _ => hstores.depth other
    trace := ⟨[], (List.append_nil _).symm, (List.append_nil _).symm⟩ }
  apply together_of_forall
  intro bound
  let task := Task.eval evaluator tree frame (first.callbackDepth evaluator)
  let other := Task.eval evaluator tree frame depth
  have hsame : Same (Store.Apart evaluator first.trace.toList second.trace.toList)
      (machine.run bound task) (machine.run bound other) first second :=
    Machine.same_of_heeds hlimit (.eval tree frame (absurd rfl)) hapart (hignores tree hread) bound
  have hdata : machine.evaluateData bound evaluator frame data first =
      machine.run bound task first := by
    rw [evaluateData_of_read hread]
    rfl
  rw [hdata]
  refine ⟨hsame.outcome.eq, ?_⟩
  obtain ⟨hframes, hclosures, hnotes, -, events, hfirst, hsecond⟩ := hsame.related
  exact {
    frames := hframes
    closures := hclosures
    notes := hnotes
    depth := fun running => by
      rw [machine.callbackDepth_run, machine.callbackDepth_run, hstores.depth]
    trace := by
      rw [hfirst, hsecond]
      exact hstores.trace.append (.refl events) }

theorem run_apply_list (machine : Machine) (evaluator : EvaluatorId) (arguments : List Term)
    (bound depth : Nat) (store : Store) :
    machine.run (bound + 1) (.apply evaluator (.primitive (.core .list)) arguments depth) store =
      (.ok (.list arguments), ((store.log (.hostApplied (.core .list) arguments)).setCallbackDepth
        evaluator depth).setCallbackDepth evaluator (store.callbackDepth evaluator)) := rfl

/-- Evaluates the operands of a call of `list`, and applies it. -/
def runOperands (machine : Machine) (evaluator : EvaluatorId) (frame : FrameId) (depth : Nat)
    (operands : List Term) (bound : Nat) : Run Term := do
  let arguments ← operands.mapM fun operand =>
    machine.run bound (.eval evaluator operand frame (depth + 1))
  machine.run bound (.apply evaluator (.primitive (.core .list)) arguments (depth + 1))

theorem widens_runOperands (depth : Nat) (operands : List Term) :
    Widens (runOperands machine evaluator frame depth operands) :=
  (widens_mapM (fun _ => widens_run machine _) operands).bind fun _ => widens_run machine _

theorem run_call_list (hlimit : machine.limit evaluator = none) {store : Store}
    (hlists : store.Lists frame) (depth : Nat) (operands : List Term) (bound : Nat) :
    machine.run (bound + 2) (.eval evaluator (.call "list" operands) frame depth) store =
      runOperands machine evaluator frame depth operands (bound + 1) store := by
  have hoperator := Machine.run_variable hlimit hlists bound (depth + 1)
  rw [Machine.run, Machine.step_node hlimit rfl, Term.call, Machine.stepNode, bind_of_ok hoperator]
  rfl

theorem run_call_unfinished (hlimit : machine.limit evaluator = none) (depth : Nat)
    (operands : List Term) {bound : Nat} (hbound : bound < 2) (store : Store) :
    (machine.run bound (.eval evaluator (.call "list" operands) frame depth) store).1 =
      .error .unfinished := by
  obtain _ | _ | bound := bound
  · rfl
  · rw [Machine.run, Machine.step_node hlimit rfl]
    rfl
  · omega

/-- A call of `list` lists the values of its operands. -/
theorem together_call (hlimit : machine.limit evaluator = none) {items trees : List Term}
    (hlists : second.Lists frame) (depth : Nat)
    (hitems : Together (fun bound => itemwiseAll (machine.evaluateData bound evaluator frame) items)
      (fun bound => trees.mapM fun tree =>
        machine.run bound (.eval evaluator tree frame (depth + 1))) first second) :
    Together (fun bound => itemwise (machine.evaluateData bound evaluator frame) (.list items))
      (machine.run · (.eval evaluator (.call "list" trees) frame depth)) first second := by
  have hoperands : Together
      (fun bound => itemwise (machine.evaluateData bound evaluator frame) (.list items))
      (runOperands machine evaluator frame depth trees) first second := by
    simp only [itemwise]
    refine hitems.bind (widens_itemwiseAll items)
      (widens_mapM (fun _ => widens_run machine _) trees) (fun _ => widens_const _) (fun _ => widens_run machine _) ?_
    intro bound values after after' _ hafter
    exact together_of_ends (widens_const _) (widens_run machine _) 0 1 rfl
      (run_apply_list machine evaluator values 0 (depth + 1) after') (ok_ne_unfinished _)
      (hafter.listed evaluator values (depth + 1))
  constructor
  · intro bound outcome after hrun hends
    obtain ⟨larger, after', hother, hafter⟩ := hoperands.forth bound outcome after hrun hends
    have hmore := (widens_runOperands depth trees).eq (Nat.le_succ larger) hother hends
    exact ⟨larger + 2, after', (run_call_list hlimit hlists depth trees larger).trans hmore, hafter⟩
  · intro bound outcome after hrun hends
    by_cases hbound : bound < 2
    · have hunfinished : (machine.run bound (.eval evaluator (.call "list" trees) frame depth)
          second).1 = .error .unfinished := run_call_unfinished hlimit depth trees hbound second
      exact absurd ((congrArg Prod.fst hrun).symm.trans hunfinished) hends
    · obtain ⟨bound, rfl⟩ := Nat.exists_eq_add_of_le' (Nat.not_lt.mp hbound)
      have hmore := (run_call_list hlimit hlists depth trees bound).symm.trans hrun
      exact hoperands.back (bound + 1) outcome after hmore hends

/-! ## Any nesting -/

theorem throughout_and {good better : Term → Store → Prop} {datas : List Term} {store : Store}
    (hgood : machine.Throughout evaluator frame good datas store)
    (hbetter : machine.Throughout evaluator frame better datas store) :
    machine.Throughout evaluator frame (fun data store => good data store ∧ better data store) datas
      store := by
  induction datas generalizing store with
  | nil => trivial
  | cons data rest ih =>
      exact ⟨⟨hgood.1, hbetter.1⟩, fun bound value after hrun =>
        ih (hgood.2 bound value after hrun) (hbetter.2 bound value after hrun)⟩

/-- Items that are evaluated alike on their own are evaluated alike one after another. -/
theorem together_all {good : Term → Store → Prop} {items trees : List Term}
    (htrees : List.Forall₂ (fun item tree => read item = .ok tree) items trees)
    (hitems : ∀ item ∈ items, ∀ tree first second depth, read item = .ok tree →
      machine.Throughout evaluator frame good (leaves item) first → first.Gathered second →
        Together (fun bound => itemwise (machine.evaluateData bound evaluator frame) item)
          (machine.run · (.eval evaluator tree frame depth)) first second)
    (hgood : machine.Throughout evaluator frame good (allLeaves items) first)
    (hstores : first.Gathered second) (depth : Nat) :
    Together (fun bound => itemwiseAll (machine.evaluateData bound evaluator frame) items)
      (fun bound => trees.mapM fun tree => machine.run bound (.eval evaluator tree frame depth))
      first second := by
  induction htrees generalizing first second with
  | nil =>
      exact together_of_ends (widens_const _) (widens_const _) 0 0 rfl rfl (ok_ne_unfinished [])
        hstores
  | @cons item tree rest others hread htrees ih =>
      rw [List.forall_mem_cons] at hitems
      rw [allLeaves] at hgood
      simp only [itemwiseAll, List.mapM_cons]
      have hothers : ∀ trees : List Term, Widens fun bound =>
          trees.mapM fun tree => machine.run bound (.eval evaluator tree frame depth) :=
        fun trees => widens_mapM (fun _ => widens_run machine _) trees
      refine (hitems.1 tree first second depth hread (throughout_of_append hgood) hstores).bind
        (widens_itemwise item) (widens_run machine _) (fun _ => (widens_itemwiseAll rest).bind
          fun _ => widens_const _) (fun _ => (hothers others).bind fun _ => widens_const _) ?_
      intro bound value after after' hrun hafter
      refine (ih hitems.2 (throughout_of_itemwise hgood hrun) hafter).bind
        (widens_itemwiseAll rest) (hothers others) (fun _ => widens_const _)
        (fun _ => widens_const _) ?_
      intro bound values last last' _ hlast
      exact together_of_ends (widens_const _) (widens_const _) 0 0 rfl rfl
        (ok_ne_unfinished _) hlast

theorem together_itemwise (hlimit : machine.limit evaluator = none) (hread : read data = .ok tree)
    (hgood : machine.Throughout evaluator frame (fun data store =>
      store.Lists frame ∧ machine.IgnoresDepthOf evaluator frame data store) (leaves data) first)
    (hstores : first.Gathered second) (depth : Nat) :
    Together (fun bound => itemwise (machine.evaluateData bound evaluator frame) data)
      (machine.run · (.eval evaluator tree frame depth)) first second := by
  induction data using nested_induct generalizing tree first second depth with
  | hleaf data hdata =>
      rw [leaves_of_ne_list hdata] at hgood
      simp only [itemwise_of_ne_list hdata]
      exact together_leaf hlimit hread hgood.1.2 hstores depth
  | hlist items ih =>
      cases hnode : tree.isNode with
      | false => exact together_literal hread hnode hstores depth
      | true =>
          -- A call has a leaf, and where the first leaf is evaluated it is known what `list` is.
          obtain ⟨leaf, rest, hleaves⟩ := List.exists_cons_of_ne_nil (leaves_ne_nil hread hnode)
          have hlists : second.Lists frame := by
            rw [hleaves] at hgood
            rw [Store.Lists, Store.lookup?_of_frames_eq hstores.frames.symm]
            exact hgood.1.1
          obtain ⟨trees, htrees, rfl⟩ := exists_of_read_list hread
          obtain ⟨hcall, -⟩ | ⟨hliteral, -⟩ := ofItems_cases trees
          case inr =>
            rw [hliteral] at hnode
            cases hnode
          rw [hcall]
          rw [leaves] at hgood
          apply together_call hlimit hlists depth
          exact together_all htrees (fun item hitem _ _ _ depth hread hgood hstores =>
            ih item hitem hread hgood hstores depth) hgood hstores (depth + 1)

/-- Data that asks the evaluator of a new closure for its callback depth. -/
def depthQuestion : Term :=
  tagged .apply (.list [.str "get-property", .list [
    tagged .apply (.list [.str "get-property", .list [
      tagged .lambda (.list [.list [], .null]), .str "evaluator"]]),
    .str "_callback_depth"]])

/-- What holds of a piece of data, and throughout the others once it has a value. -/
theorem throughout_cons {good : Term → Store → Prop} {rest : List Term} {bound : Nat} {value : Term}
    (hgood : good data first)
    (hrun : machine.evaluateData bound evaluator frame data first = (.ok value, second))
    (hrest : machine.Throughout evaluator frame good rest second) :
    machine.Throughout evaluator frame good (data :: rest) first := by
  refine ⟨hgood, fun other value' after hother => ?_⟩
  obtain ⟨-, rfl⟩ := (widens_evaluateData data).unique hrun (ok_ne_unfinished value) hother
    (ok_ne_unfinished value')
  exact hrest

/-- A list that defines a name and uses it behind a list that is kept as a literal. -/
def mixedData : Term :=
  .list [.list [tagged .define (.list [.str "x", .int 1]), .int 2], .list [.list []],
    tagged .var (.str "x")]

end Evaluations

end Form
end Rulebook
