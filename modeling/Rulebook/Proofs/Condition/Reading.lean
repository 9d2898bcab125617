import Rulebook.Condition.Reader
import Rulebook.Proofs.Malformed

/-!
# How a condition was read

What a reader accepts it has read in one of a few ways.  They are listed here once for each reader,
with what was found out about the text on the way, so that what holds of everything that is read is
proved case by case.
-/

namespace Rulebook
namespace Condition

open Text

/-- The arguments of a call, of which there may be none. -/
def argumentsOf (text : List Char) : List (List Char) :=
  if (strip text).isEmpty then [] else splitCommas (strip text)

section Readers

variable (nested : List Char → Except Malformed Term)

/-- The ways in which an operand is read. -/
inductive OperandRead (operand : List Char) : Term → Prop
  | group {term : Term} (hparen : operand.head? = some '(') (hwraps : wraps operand = true)
      (hterm : nested (strip (operand.drop 1).dropLast) = .ok term) : OperandRead operand term
  | text {content : List Char} (hcontent : quotedContent? operand = some content) :
      OperandRead operand (.str (String.ofList content))
  | number {number : Term} (hnumber : number? operand = some number) : OperandRead operand number
  | constant {constant : Term} (hconstant : constant? operand = some constant) :
      OperandRead operand constant
  | call {name arguments : List Char} {operands : List Term}
      (hcall : call? operand = some (name, arguments))
      (hoperands : ((argumentsOf arguments).mapM fun argument => nested (strip argument)) =
        .ok operands) : OperandRead operand (.call (String.ofList name) operands)
  | name (hname : isVariableName operand = true) :
      OperandRead operand (.variable (String.ofList operand))

inductive ComparisonRead (text : List Char) : Term → Prop
  | alone {term : Term} (hcut : comparison? text = none)
      (hterm : OperandRead nested (strip text) term) : ComparisonRead text term
  | compared {operator : String} {left right : List Char} {a b : Term}
      (hcut : comparison? text = some (operator, left, right))
      (hleft : OperandRead nested (strip left) a) (hright : OperandRead nested (strip right) b) :
      ComparisonRead text (.call operator [a, b])

inductive JoinedRead (keyword : Keyword) (operator : String)
    (part : List Char → Except Malformed Term) (text : List Char) : Term → Prop
  | single {piece : List Char} {term : Term} (hsplit : keyword.split text = [piece])
      (hterm : part text = .ok term) : JoinedRead keyword operator part text term
  | several {operands : List Term} (hsplit : ∀ piece, keyword.split text ≠ [piece])
      (hoperands : ((keyword.split text).mapM fun p => part (strip p)) = .ok operands) :
      JoinedRead keyword operator part text (.call operator operands)

variable {nested}

theorem operandRead_of_readOperand {text : List Char} {term : Term}
    (hterm : readOperand nested text = .ok term) : OperandRead nested (strip text) term := by
  unfold readOperand at hterm
  simp only at hterm
  split at hterm
  · cases hterm
  split at hterm
  · rename_i hgroup
    rw [Bool.and_eq_true, decide_eq_true_eq] at hgroup
    exact .group hgroup.1 hgroup.2 hterm
  split at hterm
  · cases hterm
    exact .text ‹_›
  split at hterm
  · cases hterm
    exact .number ‹_›
  split at hterm
  · cases hterm
    exact .constant ‹_›
  split at hterm
  · rename_i name arguments hcall
    split at hterm
    · rename_i hempty
      cases hterm
      refine .call hcall ?_
      rw [argumentsOf, if_pos hempty]
      rfl
    · rename_i hempty
      obtain ⟨operands, hoperands, hcalled⟩ := exists_of_bind_eq_ok hterm
      cases hcalled
      refine .call hcall ?_
      rwa [argumentsOf, if_neg hempty]
  split at hterm
  · cases hterm
    exact .name ‹_›
  · cases hterm

theorem comparisonRead_of_readComparison {text : List Char} {term : Term}
    (hterm : readComparison nested text = .ok term) : ComparisonRead nested text term := by
  unfold readComparison at hterm
  split at hterm
  · obtain ⟨a, ha, hrest⟩ := exists_of_bind_eq_ok hterm
    obtain ⟨b, hb, hcall⟩ := exists_of_bind_eq_ok hrest
    cases hcall
    exact .compared ‹_› (operandRead_of_readOperand ha) (operandRead_of_readOperand hb)
  · exact .alone ‹_› (operandRead_of_readOperand hterm)

/-- Under its negations a term is read as a comparison. -/
theorem exists_of_readNegation {text : List Char} {term : Term}
    (hterm : readNegation nested text = .ok term) :
    ∃ core, term = negated (takeNots text.length text).1 core ∧
      ComparisonRead nested (takeNots text.length text).2 core := by
  obtain ⟨core, hcore, hnegated⟩ := exists_of_bind_eq_ok hterm
  cases hnegated
  exact ⟨core, rfl, comparisonRead_of_readComparison hcore⟩

theorem joinedRead_of_readJoined {keyword : Keyword} {operator : String}
    {part : List Char → Except Malformed Term} {text : List Char} {term : Term}
    (hterm : readJoined keyword operator part text = .ok term) :
    JoinedRead keyword operator part text term := by
  unfold readJoined at hterm
  split at hterm
  · exact .single ‹_› hterm
  · rename_i hsplit
    split at hterm
    · cases hterm
    · obtain ⟨operands, hoperands, hcall⟩ := exists_of_bind_eq_ok hterm
      cases hcall
      exact .several hsplit hoperands

end Readers

end Condition
end Rulebook
