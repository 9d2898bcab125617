import Rulebook.Proofs.Form.Reading

/-!
# Canonical data

Reading plain data and writing it again gives its canonical form.  What is read is told apart by its
data: a tagged mapping is never read as a literal, a list with a node in it becomes a call, and an
operator that is a quoted text is read as the text.  So the canonical form is read as the same
expression again.
-/

namespace Rulebook
namespace Form

open Condition (Parsed)
open Term (Throughout)

/-- An expression that plain data can be read as. -/
inductive Readable : Term → Prop where
  | scalar {value : Scalar} (hvalue : value.isNaN = false) : Readable (.scalar value)
  | list {items : List Term} (hitems : ∀ item ∈ items, Readable item)
      (hnodes : ∀ item ∈ items, item.isNode = false) : Readable (.list items)
  | mapping {entries : List (Scalar × Term)} (hdata : PlainData (.mapping entries))
      (hentries : isTagged entries = false) : Readable (.mapping entries)
  | variable (name : String) : Readable (.variable name)
  | quoted {value : Term} (hvalue : PlainData value) : Readable (.quoted value)
  | application {operator : Term} {operands : List Term} (hquoted : isQuotedText operator = false)
      (hoperator : Readable operator) (hoperands : ∀ operand ∈ operands, Readable operand) :
      Readable (.application operator operands)
  | lambda {params : List String} {body : Term} (hparams : params.Nodup) (hbody : Readable body) :
      Readable (.lambda params body)
  | conditional {p c a : Term} (hp : Readable p) (hc : Readable c) (ha : Readable a) :
      Readable (.conditional p c a)
  | assignment (target : String) {value : Term} (hvalue : Readable value) :
      Readable (.assignment target value)
  | definition (target : String) {value : Term} (hvalue : Readable value) :
      Readable (.definition target value)
  | sequence {items : List Term} (hne : items ≠ []) (hitems : ∀ item ∈ items, Readable item) :
      Readable (.sequence items)

/-! ## Writing what was read -/

theorem allWritable_iff {items : List Term} :
    allWritable items = true ↔ ∀ item ∈ items, isWritable item = true := by
  induction items with
  | nil => simp [allWritable]
  | cons item rest ih => rw [allWritable, Bool.and_eq_true, ih, List.forall_mem_cons]

theorem allLiterals_iff {items : List Term} :
    allLiterals items = true ↔ ∀ item ∈ items, isLiteral item = true := by
  induction items with
  | nil => simp [allLiterals]
  | cons item rest ih => rw [allLiterals, Bool.and_eq_true, ih, List.forall_mem_cons]

theorem writeAll_eq_map (items : List Term) : writeAll items = items.map write := by
  induction items with
  | nil => rfl
  | cons item rest ih => rw [writeAll, ih, List.map_cons]

theorem isLiteral_of_isWritable {term : Term} (hterm : isWritable term = true)
    (hnode : term.isNode = false) : isLiteral term = true := by
  cases term <;> first | exact hterm | cases hnode

theorem plainData_tagged (tag : Tag) {payload : Term} (hpayload : PlainData payload) :
    PlainData (tagged tag payload) :=
  PlainData.singleton tag.key hpayload

theorem plainData_conditionalItems {p c a : Term} (hp : PlainData p) (hc : PlainData c)
    (ha : PlainData a) : PlainData (.list (conditionalItems p c a)) := by
  unfold conditionalItems
  split
  · exact .list (by simpa using ⟨hp, hc⟩)
  · exact .list (by simpa using ⟨hp, hc, ha⟩)

theorem plainData_writeAll {items : List Term} (hitems : ∀ item ∈ items, PlainData (write item)) :
    PlainData (.list (writeAll items)) := by
  rw [writeAll_eq_map]
  exact .list (List.forall_mem_map.mpr hitems)

namespace Readable

theorem isWritable {expression : Term} (hexpression : Readable expression) :
    isWritable expression = true := by
  induction hexpression with
  | scalar hvalue => rfl
  | list hitems hnodes ih =>
      rw [Form.isWritable, isLiteral, allLiterals_iff]
      · exact fun item hitem => isLiteral_of_isWritable (ih item hitem) (hnodes item hitem)
      all_goals simp
  | mapping hdata hentries => simp [Form.isWritable, isLiteral, hentries]
  | «variable» name => rfl
  | quoted hvalue => rfl
  | application hquoted hoperator hoperands ihOperator ihOperands =>
      simp [Form.isWritable, hquoted, ihOperator, allWritable_iff.mpr ihOperands]
  | lambda hparams hbody ih => simp [Form.isWritable, hparams, ih]
  | conditional hp hc ha ihp ihc iha => simp [Form.isWritable, ihp, ihc, iha]
  | assignment target hvalue ih => exact ih
  | definition target hvalue ih => exact ih
  | sequence hne hitems ih => simp [Form.isWritable, hne, allWritable_iff.mpr ih]

theorem plainData_operatorData {operator data : Term} (hoperator : Readable operator)
    (hdata : PlainData data) : PlainData (operatorData operator data) := by
  cases hoperator with
  | «variable» name => exact PlainData.str name
  | @scalar value hvalue =>
      cases value with
      | str text => exact plainData_tagged .quote (PlainData.str text)
      | _ => exact hdata
  | _ => exact hdata

/-- Nothing but plain data is written, so there is no node in it. -/
theorem plainData_write {expression : Term} (hexpression : Readable expression) :
    PlainData (write expression) := by
  induction hexpression with
  | scalar hvalue => exact .scalar hvalue
  | list hitems hnodes ih => exact plainData_writeAll ih
  | mapping hdata hentries => simpa [write, hentries] using hdata
  | «variable» name => exact plainData_tagged .var (PlainData.str name)
  | quoted hvalue => exact plainData_tagged .quote hvalue
  | application hquoted hoperator hoperands ihOperator ihOperands =>
      exact plainData_tagged .apply (.list (by
        simpa using ⟨plainData_operatorData hoperator ihOperator, plainData_writeAll ihOperands⟩))
  | lambda hparams hbody ih =>
      exact plainData_tagged .lambda (.list (by simpa using ⟨PlainData.strs _, ih⟩))
  | conditional hp hc ha ihp ihc iha =>
      exact plainData_tagged .cond (plainData_conditionalItems ihp ihc iha)
  | assignment target hvalue ih =>
      exact plainData_tagged .set (.list (by simpa using ⟨PlainData.str target, ih⟩))
  | definition target hvalue ih =>
      exact plainData_tagged .define (.list (by simpa using ⟨PlainData.str target, ih⟩))
  | sequence hne hitems ih => exact plainData_tagged .begin (plainData_writeAll ih)

end Readable

/-! ## What is read -/

theorem readable_of_parsed {expression : Term} (hparsed : Parsed expression) :
    Readable expression := by
  induction hparsed with
  | literal hvalue => exact .scalar hvalue
  | «variable» name => exact .variable name
  | call operator hoperands ih => exact .application rfl (.variable operator) ih

/-- Only what is quoted in the data is read as quoted: conditions quote nothing. -/
theorem eq_quote_of_read {data value : Term} (hdata : PlainData data)
    (hread : read data = .ok (.quoted value)) : data = tagged .quote value := by
  have hreading := reading_of_read hread
  generalize htree : Term.quoted value = tree at hreading
  cases hreading with
  | quote payload =>
      cases htree
      rfl
  | other hlist hmapping =>
      subst htree
      cases hdata
  | list hitems hlist =>
      rw [hlist, ofItems] at htree
      split_ifs at htree
      cases htree
  | when hcondition =>
      subst htree
      cases Condition.parsed_ofTerm hcondition
  | _ => cases htree

/-- An operator is a name, a quoted text, or any other expression. -/
theorem ofOperator_cases {operator tree : Term} {expression : Except Malformed Term}
    (htree : ofOperator operator expression = .ok tree) :
    (∃ name, tree = .variable name) ∨ (operator = tagged .quote tree ∧ tree.text?.isSome) ∨
      (expression = .ok tree ∧
        ∀ payload, operator = tagged .quote payload → payload.text? = none) := by
  by_cases hquote : ∃ payload, operator = tagged .quote payload ∧ payload.text?.isSome
  · obtain ⟨payload, rfl, hpayload⟩ := hquote
    have hread : ofOperator (tagged .quote payload) expression =
        if Tag.ofKey? (Tag.key .quote) = some .quote && payload.text?.isSome then .ok payload
        else expression := rfl
    rw [hread, hpayload] at htree
    cases htree
    exact .inr (.inl ⟨rfl, hpayload⟩)
  · have hnone : ∀ payload, operator = tagged .quote payload → payload.text? = none := by
      intro payload hoperator
      by_contra hsome
      exact hquote ⟨payload, hoperator, Option.isSome_iff_ne_none.mpr hsome⟩
    unfold ofOperator at htree
    split at htree
    · cases htree
      exact .inl ⟨_, rfl⟩
    · split at htree
      · rename_i key payload
        split_ifs at htree with hquoted
        · simp only [Bool.and_eq_true, decide_eq_true_eq] at hquoted
          cases htree
          refine absurd ⟨tree, ?_, hquoted.2⟩ hquote
          rw [tagged, ← eq_key_of_ofKey? hquoted.1]
        · exact .inr (.inr ⟨htree, hnone⟩)
      · exact .inr (.inr ⟨htree, hnone⟩)

theorem isQuotedText_of_ofOperator {operator tree : Term} (hoperator : PlainData operator)
    (htree : ofOperator operator (read operator) = .ok tree) : isQuotedText tree = false := by
  rcases ofOperator_cases htree with ⟨name, rfl⟩ | ⟨rfl, htext⟩ | ⟨hread, hnone⟩
  · rfl
  · obtain ⟨text, htext⟩ := Option.isSome_iff_exists.mp htext
    rw [(PlainData.of_singleton hoperator).eq_str htext]
    rfl
  · cases tree with
    | quoted value =>
        rw [isQuotedText, hnone value (eq_quote_of_read hoperator hread)]
        rfl
    | _ => rfl

theorem readable_of_ofOperator {operator tree : Term} (hoperator : PlainData operator)
    (hreadable : ∀ tree, read operator = .ok tree → Readable tree)
    (htree : ofOperator operator (read operator) = .ok tree) : Readable tree := by
  rcases ofOperator_cases htree with ⟨name, rfl⟩ | ⟨rfl, htext⟩ | ⟨hread, -⟩
  · exact .variable name
  · obtain ⟨text, htext⟩ := Option.isSome_iff_exists.mp htext
    rw [(PlainData.of_singleton hoperator).eq_str htext]
    exact .scalar rfl
  · exact hreadable tree hread

/-- What a list is read as: a literal list without nodes, or a call of `list`. -/
theorem readable_ofItems {items : List Term} (hitems : ∀ item ∈ items, Readable item) :
    Readable (ofItems items) := by
  rw [ofItems]
  split_ifs with hnode
  · exact .application rfl (.variable "list") hitems
  · refine .list hitems fun item hitem => ?_
    rw [Bool.not_eq_true, List.any_eq_false] at hnode
    simpa using hnode item hitem

/-- If data is plain, whatever it is read as is readable. -/
def ReadsReadable (data : Term) : Prop :=
  PlainData data → ∀ tree, read data = .ok tree → Readable tree

theorem readable_of_readAll {items trees : List Term} (hdata : ∀ item ∈ items, PlainData item)
    (hitems : ∀ item ∈ items, ReadsReadable item) (htrees : readAll items = .ok trees) :
    ∀ tree ∈ trees, Readable tree := by
  rw [readAll_eq_mapM] at htrees
  exact forall_mem_of_mapM (fun item hitem => hitems item hitem (hdata item hitem)) htrees

/-- The items of a payload are two levels below the data, so the induction is on all that is inside
of it. -/
theorem throughout_readsReadable (data : Term) : Throughout ReadsReadable data := by
  induction data using Term.contents_induct with
  | h data ih =>
      refine .intro ?_ ih
      intro hdata tree hread
      have hitems : ∀ {tag items}, data = tagged tag (.list items) →
          ∀ item ∈ items, PlainData item ∧ Throughout ReadsReadable item := by
        rintro tag items rfl item hitem
        have hpayload := ih (.list items) (List.mem_singleton.mpr rfl)
        exact ⟨PlainData.list_iff.mp (PlainData.of_singleton hdata) item hitem, hpayload.of_mem hitem⟩
      cases reading_of_read hread with
      | other hlist hmapping =>
          cases hdata with
          | scalar hvalue => exact .scalar hvalue
          | list hitems => exact absurd rfl (hlist _)
          | mapping hdistinct hkeys hvalues => exact absurd rfl (hmapping _)
      | list htrees hlist =>
          rw [hlist]
          exact readable_ofItems (readable_of_readAll (PlainData.list_iff.mp hdata)
            (fun item hitem => (ih item hitem).self) htrees)
      | mapping hentries => exact .mapping hdata hentries
      | var hname => exact .variable _
      | quote payload => exact .quoted (PlainData.of_singleton hdata)
      | when htree => exact readable_of_parsed (Condition.parsed_ofTerm htree)
      | @apply operator operatorTree operands trees hoperator hoperands =>
          obtain ⟨hplain, hinside⟩ := hitems rfl operator (by simp)
          obtain ⟨hplainAll, hinsideAll⟩ := hitems rfl (.list operands) (by simp)
          refine .application (isQuotedText_of_ofOperator hplain hoperator) ?_ ?_
          · exact readable_of_ofOperator hplain (hinside.self hplain) hoperator
          · exact readable_of_readAll (PlainData.list_iff.mp hplainAll)
              (fun item hitem => (hinsideAll.of_mem hitem).self) hoperands
      | @lambda params body bodyTree names hparams hnodup hbody =>
          obtain ⟨hplain, hinside⟩ := hitems rfl body (by simp)
          exact .lambda hnodup (hinside.self hplain _ hbody)
      | @cond p c predicate consequent hp hc =>
          obtain ⟨hplainP, hinsideP⟩ := hitems rfl p (by simp)
          obtain ⟨hplainC, hinsideC⟩ := hitems rfl c (by simp)
          exact .conditional (hinsideP.self hplainP _ hp) (hinsideC.self hplainC _ hc) (.scalar rfl)
      | @condAlternative p c a predicate consequent alternative hp hc ha =>
          obtain ⟨hplainP, hinsideP⟩ := hitems rfl p (by simp)
          obtain ⟨hplainC, hinsideC⟩ := hitems rfl c (by simp)
          obtain ⟨hplainA, hinsideA⟩ := hitems rfl a (by simp)
          exact .conditional (hinsideP.self hplainP _ hp) (hinsideC.self hplainC _ hc)
            (hinsideA.self hplainA _ ha)
      | @set target value valueTree name htarget hvalue =>
          obtain ⟨hplain, hinside⟩ := hitems rfl value (by simp)
          exact .assignment name (hinside.self hplain _ hvalue)
      | @define target value valueTree name htarget hvalue =>
          obtain ⟨hplain, hinside⟩ := hitems rfl value (by simp)
          exact .definition name (hinside.self hplain _ hvalue)
      | @begin items trees htrees hne =>
          refine .sequence hne (readable_of_readAll (fun item hitem => (hitems rfl item hitem).1)
            (fun item hitem => (hitems rfl item hitem).2.self) htrees)

theorem readable_of_read {data tree : Term} (hdata : PlainData data)
    (hread : read data = .ok tree) : Readable tree :=
  (throughout_readsReadable data).self hdata tree hread

/-! ## The canonical form -/

/-- The data that is written for what data is read as. -/
def canonical? (data : Term) : Except Malformed Term :=
  (read data).map write

/-- Plain data that is accepted has a canonical form, which is plain data without any node in it, is
read as the same expression and is its own canonical form. -/
theorem read_canonical {data tree : Term} (hdata : PlainData data) (hread : read data = .ok tree) :
    PlainData (write tree) ∧ Throughout (fun part => part.isNode = false) (write tree) ∧
      read (write tree) = .ok tree ∧ canonical? (write tree) = .ok (write tree) := by
  have hreadable := readable_of_read hdata hread
  have hback : read (write tree) = .ok tree := read_write hreadable.isWritable
  refine ⟨hreadable.plainData_write, hreadable.plainData_write.throughout_not_isNode, hback, ?_⟩
  rw [canonical?, hback]
  rfl

/-- A block with the text of a condition, a list that holds an expression, a quoted operator, an
alternative that is `null`, and a mapping that holds what looks like a tag. -/
def mixedBlock : Term :=
  tagged .begin (.list [
    tagged .when (.str "x > 1 AND f('OR')"),
    .list [.str "x", tagged .var (.str "x")],
    tagged .apply (.list [tagged .quote (.str "f"),
      .list [.mapping [(.str "a", tagged .var (.int 1)), (.str "b", .null)]]]),
    tagged .cond (.list [.bool true, .str "y", .null])])

def canonicalBlock : Term :=
  tagged .begin (.list [
    tagged .apply (.list [.str "and", .list [
      tagged .apply (.list [.str ">", .list [tagged .var (.str "x"), .int 1]]),
      tagged .apply (.list [.str "f", .list [.str "OR"]])]]),
    tagged .apply (.list [.str "list", .list [.str "x", tagged .var (.str "x")]]),
    tagged .apply (.list [tagged .quote (.str "f"),
      .list [.mapping [(.str "a", tagged .var (.int 1)), (.str "b", .null)]]]),
    tagged .cond (.list [.bool true, .str "y"])])

theorem read_canonical_block :
    PlainData mixedBlock ∧
    read mixedBlock = .ok (.sequence [
      .call "and" [.call ">" [.variable "x", .int 1], .call "f" [.str "OR"]],
      .call "list" [.str "x", .variable "x"],
      .application (.str "f") [.mapping [(.str "a", tagged .var (.int 1)), (.str "b", .null)]],
      .conditional (.bool true) (.str "y") .null]) ∧
    PlainData canonicalBlock ∧ Throughout (fun part => part.isNode = false) canonicalBlock ∧
      read canonicalBlock = read mixedBlock ∧ canonical? canonicalBlock = .ok canonicalBlock := by
  have hdata : PlainData mixedBlock := by
    simp [mixedBlock, tagged, PlainData.mapping_iff, PlainData.list_iff, PlainData.scalar_iff,
      Entries.Distinct, Scalar.equal, Scalar.isNaN]
  have hread : read mixedBlock = .ok (.sequence [
      .call "and" [.call ">" [.variable "x", .int 1], .call "f" [.str "OR"]],
      .call "list" [.str "x", .variable "x"],
      .application (.str "f") [.mapping [(.str "a", tagged .var (.int 1)), (.str "b", .null)]],
      .conditional (.bool true) (.str "y") .null]) := rfl
  obtain ⟨hplain, hnodes, hback, hfixed⟩ := read_canonical hdata hread
  exact ⟨hdata, hread, hplain, hnodes, hback.trans hread.symm, hfixed⟩

end Form
end Rulebook
