import Rulebook.Proofs.Form.RoundTrip
import Rulebook.Proofs.Term.Equality

/-!
# What written expressions are read as

Expressions whose literals look like nodes are not read back as they are.  A literal mapping with a
tag comes back quoted, a literal list that holds such a mapping comes back as a call of `list`, and
an operator that is a quoted text comes back as the text.  Reading accepts them all the same, as long
as no literal list holds a node.
-/

namespace Rulebook
namespace Form

mutual

/-- Whether a term is data from which lists lead to no node. -/
def isData : Term → Bool
  | .list items => allData items
  | term => !term.isNode
termination_by structural t => t

def allData : List Term → Bool
  | [] => true
  | item :: rest => isData item && allData rest
termination_by structural ts => ts

end

mutual

/-- Whether all literals of an expression are data.  As always, the parameters of a lambda differ,
and a sequence has an item. -/
def isPlain : Term → Bool
  | .variable _ | .quoted _ | .mystery => true
  | .application operator operands => isPlain operator && allPlain operands
  | .lambda params body => params.Nodup && isPlain body
  | .conditional p c a => isPlain p && isPlain c && isPlain a
  | .assignment _ value | .definition _ value => isPlain value
  | .sequence items => !items.isEmpty && allPlain items
  | literal => isData literal
termination_by structural t => t

def allPlain : List Term → Bool
  | [] => true
  | item :: rest => isPlain item && allPlain rest
termination_by structural ts => ts

end

def recodedOperator (operator recoded : Term) : Term :=
  match operator with
  | .quoted value => if value.text?.isSome then value else recoded
  | _ => recoded

mutual

/-- What an expression is read as after it has been written. -/
def recode : Term → Term
  | .list items => ofItems (recodeAll items)
  | .mapping entries => if isTagged entries then .quoted (.mapping entries) else .mapping entries
  | .application operator operands =>
    .application (recodedOperator operator (recode operator)) (recodeAll operands)
  | .lambda params body => .lambda params (recode body)
  | .conditional p c a => .conditional (recode p) (recode c) (recode a)
  | .assignment target value => .assignment target (recode value)
  | .definition target value => .definition target (recode value)
  | .sequence items => .sequence (recodeAll items)
  | other => other
termination_by structural t => t

def recodeAll : List Term → List Term
  | [] => []
  | item :: rest => recode item :: recodeAll rest
termination_by structural ts => ts

end

theorem recodeAll_eq_map (items : List Term) : recodeAll items = items.map recode := by
  induction items with
  | nil => rfl
  | cons item rest ih => rw [recodeAll, ih, List.map_cons]

theorem allData_iff {items : List Term} :
    allData items = true ↔ ∀ item ∈ items, isData item = true := by
  induction items with
  | nil => simp [allData]
  | cons item rest ih => rw [allData, Bool.and_eq_true, ih, List.forall_mem_cons]

/-! ## Literals -/

theorem isNode_of_isData {term : Term} (hterm : isData term = true) : term.isNode = false := by
  cases term <;> simp_all [isData, Term.isNode]

theorem isNode_recode {term : Term} (hnode : term.isNode = true) : (recode term).isNode = true := by
  cases term <;> first | rfl | cases hnode

theorem isData_of_isPlain {term : Term} (hplain : isPlain term = true)
    (hnode : term.isNode = false) : isData term = true := by
  cases term <;> first | exact hplain | cases hnode

/-- Data stays what it is or becomes a node. -/
theorem recode_of_not_isNode {term : Term} (hterm : isData term = true)
    (hnode : (recode term).isNode = false) : recode term = term := by
  induction term using Term.contents_induct with
  | h term ih =>
      cases term with
      | list items =>
          rw [isData, allData_iff] at hterm
          rw [recode, ofItems, recodeAll_eq_map] at hnode ⊢
          split_ifs at hnode ⊢ with hany
          · cases hnode
          · have hitems : ∀ item ∈ items, recode item = item := by
              intro item hitem
              apply ih item hitem (hterm item hitem)
              rw [Bool.not_eq_true, List.any_eq_false] at hany
              exact Bool.not_eq_true _ ▸ hany _ (List.mem_map_of_mem hitem)
            rw [List.map_congr_left hitems, List.map_id']
      | mapping entries =>
          rw [recode] at hnode ⊢
          split_ifs at hnode ⊢
          · cases hnode
          · rfl
      | scalar value => rfl
      | tuple items => rfl
      | record type fields => rfl
      | primitive callable => rfl
      | kind k => rfl
      | scope frame => rfl
      | evaluator id => rfl
      | closure id params body home owner => rfl
      | _ => cases isNode_of_isData hterm

mutual

theorem read_write_data {term : Term} (hterm : isData term = true) :
    read (write term) = .ok (recode term) := by
  cases term with
  | list items =>
      rw [isData] at hterm
      rw [write, read, readAll_write_data hterm]
      rfl
  | mapping entries =>
      rw [write, recode]
      split_ifs with htagged
      · exact read_quote _
      · rw [Bool.not_eq_true] at htagged
        exact read_mapping htagged
  | scalar value => rfl
  | tuple items => rfl
  | record type fields => rfl
  | primitive callable => rfl
  | kind k => rfl
  | scope frame => rfl
  | evaluator id => rfl
  | closure id params body home owner => rfl
  | _ => cases isNode_of_isData hterm

theorem readAll_write_data {items : List Term} (hitems : allData items = true) :
    readAll (writeAll items) = .ok (recodeAll items) := by
  cases items with
  | nil => rfl
  | cons item rest =>
      rw [allData, Bool.and_eq_true] at hitems
      rw [writeAll, readAll, read_write_data hitems.1, readAll_write_data hitems.2]
      rfl

end

/-! ## Expressions -/

theorem ofOperator_quotedText {payload : Term} (hpayload : payload.text?.isSome = true)
    (expression : Except Malformed Term) :
    ofOperator (tagged .quote payload) expression = .ok payload := by
  change (if Tag.ofKey? (Tag.key .quote) = some .quote && payload.text?.isSome then .ok payload
    else expression) = .ok payload
  rw [hpayload]
  rfl

theorem ofOperator_recoded {operator : Term} (hread : read (write operator) = .ok (recode operator)) :
    ofOperator (operatorData operator (write operator))
      (read (operatorData operator (write operator))) =
        .ok (recodedOperator operator (recode operator)) := by
  have hexpression : (∀ expression, ofOperator (write operator) expression = expression) →
      operatorData operator (write operator) = write operator →
        recodedOperator operator (recode operator) = recode operator →
          ofOperator (operatorData operator (write operator))
            (read (operatorData operator (write operator))) =
              .ok (recodedOperator operator (recode operator)) := by
    intro hplain hdata hrecoded
    rw [hdata, hplain, hread, hrecoded]
  cases operator with
  | scalar value => cases value <;> rfl
  | «variable» name => rfl
  | kind k => rfl
  | mapping entries =>
      cases htagged : isTagged entries with
      | true =>
          have hwrite : write (.mapping entries) = tagged .quote (.mapping entries) := by
            rw [write, if_pos htagged]
          apply hexpression _ rfl rfl
          rw [hwrite]
          exact ofOperator_quote rfl
      | false =>
          have hwrite : write (.mapping entries) = .mapping entries := by
            rw [write, htagged, if_neg Bool.false_ne_true]
          apply hexpression _ rfl rfl
          rw [hwrite]
          exact ofOperator_of_not_isTagged htagged
  | quoted value =>
      cases htext : value.text? with
      | none =>
          apply hexpression (ofOperator_quote htext) rfl
          simp [recodedOperator, htext]
      | some text =>
          have hsome : value.text?.isSome = true := by rw [htext]; rfl
          rw [recodedOperator, if_pos hsome]
          exact ofOperator_quotedText hsome _
  | application operator operands => exact hexpression (ofOperator_tagged (by decide) _) rfl rfl
  | lambda params body => exact hexpression (ofOperator_tagged (by decide) _) rfl rfl
  | conditional p c a => exact hexpression (ofOperator_tagged (by decide) _) rfl rfl
  | assignment name value => exact hexpression (ofOperator_tagged (by decide) _) rfl rfl
  | definition name value => exact hexpression (ofOperator_tagged (by decide) _) rfl rfl
  | sequence items => exact hexpression (ofOperator_tagged (by decide) _) rfl rfl
  | _ => exact hexpression (fun _ => rfl) rfl rfl

theorem read_write_alternative {p c a : Term} (hp : read (write p) = .ok (recode p))
    (hc : read (write c) = .ok (recode c)) (ha : read (write a) = .ok (recode a)) :
    read (write (.conditional p c a)) = .ok (recode (.conditional p c a)) := by
  rw [write]
  by_cases hnull : a = .null
  · subst hnull
    have hitems : conditionalItems (write p) (write c) (write .null) = [write p, write c] := rfl
    rw [hitems, read_cond, hp, hc]
    rfl
  · have hitems : conditionalItems (write p) (write c) (write a) =
        [write p, write c, write a] :=
      conditionalItems_of_ne fun heq => hnull (eq_null_of_write heq)
    rw [hitems, read_cond_alternative, hp, hc, ha]
    rfl

mutual

/-- Every expression whose literals are data is read as its recoded form. -/
theorem read_write_recode {expression : Term} (hplain : isPlain expression = true) :
    read (write expression) = .ok (recode expression) := by
  cases expression with
  | «variable» name => exact read_var name
  | application operator operands =>
      rw [isPlain, Bool.and_eq_true] at hplain
      have hoperator := ofOperator_recoded (read_write_recode hplain.1)
      rw [write, read_apply, hoperator, readAll_write_recode hplain.2]
      rfl
  | lambda params body =>
      simp only [isPlain, Bool.and_eq_true, decide_eq_true_eq] at hplain
      rw [write, read_lambda, read_write_recode hplain.2, Except.bind, lambda?, if_pos hplain.1]
      rfl
  | conditional p c a =>
      simp only [isPlain, Bool.and_eq_true] at hplain
      exact read_write_alternative (read_write_recode hplain.1.1) (read_write_recode hplain.1.2)
        (read_write_recode hplain.2)
  | assignment name value =>
      rw [isPlain] at hplain
      rw [write, read_set, read_write_recode hplain]
      rfl
  | definition name value =>
      rw [isPlain] at hplain
      rw [write, read_define, read_write_recode hplain]
      rfl
  | sequence items =>
      simp only [isPlain, Bool.and_eq_true, Bool.not_eq_true', List.isEmpty_eq_false_iff] at hplain
      have hempty : (recodeAll items).isEmpty = false := by
        rw [recodeAll_eq_map, List.isEmpty_map]
        exact List.isEmpty_eq_false_iff.mpr hplain.1
      rw [write, read_begin, readAll_write_recode hplain.2, Except.bind, sequence?, hempty,
        if_neg Bool.false_ne_true]
      rfl
  | quoted value => exact read_quote value
  | mystery => rfl
  | _ => exact read_write_data (by simpa only [isPlain] using hplain)

theorem readAll_write_recode {expressions : List Term} (hplain : allPlain expressions = true) :
    readAll (writeAll expressions) = .ok (recodeAll expressions) := by
  cases expressions with
  | nil => rfl
  | cons expression rest =>
      rw [allPlain, Bool.and_eq_true] at hplain
      rw [writeAll, readAll, read_write_recode hplain.1, readAll_write_recode hplain.2]
      rfl

end

end Form
end Rulebook
