import Mathlib
import Rulebook.Form.Read
import Rulebook.Form.Write

/-!
# Reading written expressions

The data form of an expression uses mappings and lists for nodes, and literals can be mappings and
lists too.  An expression is writable when none of its literals is mistaken for a node and when no
operator is a quoted text, which is written like the text alone.  Writable expressions are read
back node for node; what is quoted may be any term at all.
-/

namespace Rulebook
namespace Form

mutual

/-- Whether a term is data that reading takes as it is: no tagged mapping, and no list from which
lists lead to a tagged mapping or to a node. -/
def isLiteral : Term → Bool
  | .list items => allLiterals items
  | .mapping entries => !isTagged entries
  | term => !term.isNode
termination_by structural t => t

def allLiterals : List Term → Bool
  | [] => true
  | item :: rest => isLiteral item && allLiterals rest
termination_by structural ts => ts

end

def isQuotedText : Term → Bool
  | .quoted value => value.text?.isSome
  | _ => false

mutual

/-- Whether an expression is told apart from all others by its data.  The parameters of a lambda
differ, and a sequence has an item: no other lambda or sequence can be built. -/
def isWritable : Term → Bool
  | .variable _ | .quoted _ | .mystery => true
  | .application operator operands =>
    !isQuotedText operator && isWritable operator && allWritable operands
  | .lambda params body => params.Nodup && isWritable body
  | .conditional p c a => isWritable p && isWritable c && isWritable a
  | .assignment _ value | .definition _ value => isWritable value
  | .sequence items => !items.isEmpty && allWritable items
  | literal => isLiteral literal
termination_by structural t => t

def allWritable : List Term → Bool
  | [] => true
  | item :: rest => isWritable item && allWritable rest
termination_by structural ts => ts

end

/-! ## Tagged mappings -/

theorem read_var (name : String) : read (tagged .var (.str name)) = .ok (.variable name) := rfl

theorem read_quote (payload : Term) : read (tagged .quote payload) = .ok (.quoted payload) := rfl

theorem read_apply (operator : Term) (operands : List Term) :
    read (tagged .apply (.list [operator, .list operands])) = (do
      let operator ← ofOperator operator (read operator)
      let operands ← readAll operands
      .ok (.application operator operands)) := rfl

theorem names?_map_str (params : List String) : names? (params.map Term.str) = some params := by
  induction params with
  | nil => rfl
  | cons param rest ih =>
      rw [names?] at ih
      rw [names?, List.map_cons, List.mapM_cons, ih]
      rfl

theorem read_lambda (params : List String) (body : Term) :
    read (tagged .lambda (.list [.list (params.map Term.str), body])) =
      (read body).bind (lambda? params) := by
  rw [tagged, read.eq_def]
  simp only [Tag.ofKey?_key, names?_map_str]
  rfl

theorem read_cond (p c : Term) :
    read (tagged .cond (.list [p, c])) = (do
      let p ← read p
      let c ← read c
      .ok (.conditional p c .null)) := rfl

theorem read_cond_alternative (p c a : Term) :
    read (tagged .cond (.list [p, c, a])) = (do
      let p ← read p
      let c ← read c
      let a ← read a
      .ok (.conditional p c a)) := rfl

theorem read_set (name : String) (value : Term) :
    read (tagged .set (.list [.str name, value])) = (do
      let value ← read value
      .ok (.assignment name value)) := rfl

theorem read_define (name : String) (value : Term) :
    read (tagged .define (.list [.str name, value])) = (do
      let value ← read value
      .ok (.definition name value)) := rfl

theorem read_begin (items : List Term) :
    read (tagged .begin (.list items)) = (readAll items).bind sequence? := rfl

/-! ## Literals -/

theorem not_isNode_of_isLiteral {term : Term} (hterm : isLiteral term = true) :
    term.isNode = false := by
  cases term with
  | list items => rfl
  | mapping entries => rfl
  | _ => simpa [isLiteral] using hterm

theorem not_any_isNode_of_allLiterals {items : List Term} (hitems : allLiterals items = true) :
    items.any Term.isNode = false := by
  induction items with
  | nil => rfl
  | cons item rest ih =>
      rw [allLiterals, Bool.and_eq_true] at hitems
      rw [List.any_cons, not_isNode_of_isLiteral hitems.1, ih hitems.2, Bool.or_self]

theorem ofItems_of_allLiterals {items : List Term} (hitems : allLiterals items = true) :
    ofItems items = .list items := by
  rw [ofItems, not_any_isNode_of_allLiterals hitems, if_neg Bool.false_ne_true]

theorem read_mapping {entries : List (Scalar × Term)} (hentries : isTagged entries = false) :
    read (.mapping entries) = .ok (.mapping entries) := by
  rcases entries with _ | ⟨⟨key, payload⟩, _ | ⟨entry, rest⟩⟩
  · rfl
  · cases key with
    | str key =>
        have hkey : Tag.ofKey? key = none := by simpa [isTagged] using hentries
        unfold read
        rw [hkey]
    | _ => rfl
  · simp [read]

mutual

theorem read_literal {term : Term} (hterm : isLiteral term = true) :
    read (write term) = .ok term := by
  cases term with
  | list items =>
      rw [isLiteral] at hterm
      rw [write, read, readAll_literals hterm, ← ofItems_of_allLiterals hterm]
      rfl
  | mapping entries =>
      rw [isLiteral, Bool.not_eq_true'] at hterm
      rw [write, hterm, if_neg Bool.false_ne_true]
      exact read_mapping hterm
  | scalar value => rfl
  | tuple items => rfl
  | record type fields => rfl
  | primitive callable => rfl
  | kind k => rfl
  | scope frame => rfl
  | evaluator id => rfl
  | closure id params body home owner => rfl
  | _ => exact absurd hterm (by simp [isLiteral, Term.isNode])

theorem readAll_literals {items : List Term} (hitems : allLiterals items = true) :
    readAll (writeAll items) = .ok items := by
  cases items with
  | nil => rfl
  | cons item rest =>
      rw [allLiterals, Bool.and_eq_true] at hitems
      rw [writeAll, readAll, read_literal hitems.1, readAll_literals hitems.2]
      rfl

end

/-! ## Operators -/

theorem ofOperator_of_not_isTagged {entries : List (Scalar × Term)}
    (hentries : isTagged entries = false) (expression : Except Malformed Term) :
    ofOperator (.mapping entries) expression = expression := by
  simp only [ofOperator, Term.text?]
  split
  case h_1 key payload heq =>
    cases heq
    have hkey : Tag.ofKey? key = none := by simpa [isTagged] using hentries
    simp [hkey]
  case h_2 => rfl

theorem ofOperator_tagged {tag : Tag} (htag : tag ≠ .quote) (payload : Term)
    (expression : Except Malformed Term) :
    ofOperator (tagged tag payload) expression = expression := by
  cases tag with
  | quote => exact absurd rfl htag
  | _ => rfl

theorem ofOperator_quote {payload : Term} (hpayload : payload.text? = none)
    (expression : Except Malformed Term) :
    ofOperator (tagged .quote payload) expression = expression := by
  change (if Tag.ofKey? (Tag.key .quote) = some .quote && payload.text?.isSome then .ok payload
    else expression) = expression
  rw [hpayload]
  rfl

theorem ofOperator_operatorData {operator : Term} (hquoted : isQuotedText operator = false)
    (hoperator : isWritable operator = true)
    (hread : read (write operator) = .ok operator) :
    ofOperator (operatorData operator (write operator))
      (read (operatorData operator (write operator))) = .ok operator := by
  have hexpression : (∀ expression, ofOperator (write operator) expression = expression) →
      operatorData operator (write operator) = write operator →
        ofOperator (operatorData operator (write operator))
          (read (operatorData operator (write operator))) = .ok operator := by
    intro hplain hdata
    rw [hdata, hplain, hread]
  cases operator with
  | scalar value => cases value <;> rfl
  | «variable» name => rfl
  | kind k => rfl
  | mapping entries =>
      simp only [isWritable, isLiteral, Bool.not_eq_true'] at hoperator
      have hwrite : write (.mapping entries) = .mapping entries := by
        rw [write, hoperator, if_neg Bool.false_ne_true]
      apply hexpression _ rfl
      rw [hwrite]
      exact ofOperator_of_not_isTagged hoperator
  | quoted value =>
      have hvalue : value.text? = none := by simpa [isQuotedText] using hquoted
      exact hexpression (ofOperator_quote hvalue) rfl
  | application operator operands => exact hexpression (ofOperator_tagged (by decide) _) rfl
  | lambda params body => exact hexpression (ofOperator_tagged (by decide) _) rfl
  | conditional p c a => exact hexpression (ofOperator_tagged (by decide) _) rfl
  | assignment name value => exact hexpression (ofOperator_tagged (by decide) _) rfl
  | definition name value => exact hexpression (ofOperator_tagged (by decide) _) rfl
  | sequence items => exact hexpression (ofOperator_tagged (by decide) _) rfl
  | _ => exact hexpression (fun _ => rfl) rfl

/-! ## Expressions -/

theorem conditionalItems_of_ne {p c a : Term} (ha : a ≠ .null) :
    conditionalItems p c a = [p, c, a] := by
  unfold conditionalItems
  split
  · exact absurd rfl ha
  · rfl

theorem eq_null_of_write {term : Term} (hterm : write term = .null) : term = .null := by
  cases term with
  | scalar value => exact hterm
  | mapping entries =>
      rw [write] at hterm
      split_ifs at hterm
      exact absurd hterm (by simp [tagged])
  | _ => simp [write, tagged] at hterm

/-- Only an alternative that is `null` is left out, and only `null` is written as `null`. -/
theorem read_write_conditional {p c a : Term} (hp : read (write p) = .ok p)
    (hc : read (write c) = .ok c) (ha : read (write a) = .ok a) :
    read (write (.conditional p c a)) = .ok (.conditional p c a) := by
  rw [write]
  by_cases hnull : a = .null
  · subst hnull
    have hitems : conditionalItems (write p) (write c) (write .null) = [write p, write c] := rfl
    rw [hitems, read_cond, hp, hc]
    rfl
  · have hitems : conditionalItems (write p) (write c) (write a) =
        [write p, write c, write a] :=
      conditionalItems_of_ne fun heq => hnull (eq_null_of_write heq)
    rw [hitems, read_cond_alternative, hp, hc, ha]
    rfl

mutual

theorem read_written {expression : Term} (hwritable : isWritable expression = true) :
    read (write expression) = .ok expression := by
  cases expression with
  | «variable» name => exact read_var name
  | application operator operands =>
      simp only [isWritable, Bool.and_eq_true, Bool.not_eq_true'] at hwritable
      obtain ⟨⟨hquoted, hoperator⟩, hoperands⟩ := hwritable
      have hread := read_written hoperator
      have hall := readAll_written hoperands
      rw [write, read_apply, ofOperator_operatorData hquoted hoperator hread, hall]
      rfl
  | lambda params body =>
      simp only [isWritable, Bool.and_eq_true, decide_eq_true_eq] at hwritable
      have hread := read_written hwritable.2
      rw [write, read_lambda, hread, Except.bind, lambda?, if_pos hwritable.1]
  | conditional p c a =>
      simp only [isWritable, Bool.and_eq_true] at hwritable
      exact read_write_conditional (read_written hwritable.1.1) (read_written hwritable.1.2)
        (read_written hwritable.2)
  | assignment name value =>
      rw [isWritable] at hwritable
      rw [write, read_set, read_written hwritable]
      rfl
  | definition name value =>
      rw [isWritable] at hwritable
      rw [write, read_define, read_written hwritable]
      rfl
  | sequence items =>
      simp only [isWritable, Bool.and_eq_true, Bool.not_eq_true'] at hwritable
      have hall := readAll_written hwritable.2
      rw [write, read_begin, hall, Except.bind, sequence?, hwritable.1, if_neg Bool.false_ne_true]
  | quoted value => exact read_quote value
  | mystery => rfl
  | _ => exact read_literal (by simpa only [isWritable] using hwritable)

theorem readAll_written {expressions : List Term}
    (hwritable : allWritable expressions = true) :
    readAll (writeAll expressions) = .ok expressions := by
  cases expressions with
  | nil => rfl
  | cons expression rest =>
      rw [allWritable, Bool.and_eq_true] at hwritable
      rw [writeAll, readAll, read_written hwritable.1, readAll_written hwritable.2]
      rfl

end

/-- Writable expressions of every kind and size are read back from their data. -/
theorem read_write {expression : Term} (hwritable : isWritable expression = true) :
    read (write expression) = .ok expression :=
  read_written hwritable

theorem read_write_applied_lambda :
    isWritable (.application (.lambda ["x"] (.conditional (.variable "x") (.int 1) .null))
      [.list [.str "x", .list []], .quoted (.str "x")]) = true ∧
    read (write (.application (.lambda ["x"] (.conditional (.variable "x") (.int 1) .null))
      [.list [.str "x", .list []], .quoted (.str "x")])) =
        .ok (.application (.lambda ["x"] (.conditional (.variable "x") (.int 1) .null))
          [.list [.str "x", .list []], .quoted (.str "x")]) :=
  ⟨by decide, read_write (by decide)⟩

end Form
end Rulebook
