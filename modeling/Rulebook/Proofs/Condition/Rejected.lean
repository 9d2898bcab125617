import Rulebook.Condition.Reader
import Rulebook.Proofs.Malformed

/-!
# Why conditions are rejected

What is wrong with a condition is wrong with its text, so what is said about it shows no term.  A
reader that is handed only such problems by the reader of what is nested reports no others.
-/

namespace Rulebook
namespace Condition

/-- A reader rejects a text only for what is wrong with a text. -/
def RejectsTexts (reader : List Char → Except Malformed Term) : Prop :=
  ∀ text problem, reader text = .error problem → problem.subject? = none

section Readers

variable {nested : List Char → Except Malformed Term}

theorem RejectsTexts.mapM {reader : List Char → Except Malformed Term}
    (hreader : RejectsTexts reader) {parts : List (List Char)} {problem : Malformed}
    (hproblem : (parts.mapM fun part => reader (Text.strip part)) = .error problem) :
    problem.subject? = none := by
  obtain ⟨before, part, after, -, -, hpart⟩ := exists_of_mapM_eq_error hproblem
  exact hreader _ _ hpart

theorem rejectsTexts_readOperand (hnested : RejectsTexts nested) :
    RejectsTexts (readOperand nested) := by
  intro text problem hproblem
  unfold readOperand at hproblem
  simp only at hproblem
  split at hproblem
  · cases hproblem
    rfl
  split at hproblem
  · exact hnested _ _ hproblem
  split at hproblem
  · cases hproblem
  split at hproblem
  · cases hproblem
  split at hproblem
  · cases hproblem
  split at hproblem
  · split at hproblem
    · cases hproblem
    · rcases bind_eq_error hproblem with harguments | ⟨operands, -, hcall⟩
      · exact hnested.mapM harguments
      · cases hcall
  split at hproblem
  · cases hproblem
  · cases hproblem
    rfl

theorem rejectsTexts_readComparison (hnested : RejectsTexts nested) :
    RejectsTexts (readComparison nested) := by
  intro text problem hproblem
  have hoperand := rejectsTexts_readOperand hnested
  unfold readComparison at hproblem
  split at hproblem
  · rcases bind_eq_error hproblem with hleft | ⟨a, -, hrest⟩
    · exact hoperand _ _ hleft
    · rcases bind_eq_error hrest with hright | ⟨b, -, hcall⟩
      · exact hoperand _ _ hright
      · cases hcall
  · exact hoperand _ _ hproblem

theorem rejectsTexts_readNegation (hnested : RejectsTexts nested) :
    RejectsTexts (readNegation nested) := by
  intro text problem hproblem
  rcases bind_eq_error hproblem with hcore | ⟨term, -, hnegated⟩
  · exact rejectsTexts_readComparison hnested _ _ hcore
  · cases hnegated

theorem rejectsTexts_readJoined (keyword : Keyword) (operator : String)
    {part : List Char → Except Malformed Term} (hpart : RejectsTexts part) :
    RejectsTexts (readJoined keyword operator part) := by
  intro text problem hproblem
  unfold readJoined at hproblem
  split at hproblem
  · exact hpart _ _ hproblem
  · split at hproblem
    · cases hproblem
      rfl
    · rcases bind_eq_error hproblem with hparts | ⟨operands, -, hcall⟩
      · exact hpart.mapM hparts
      · cases hcall

end Readers

theorem rejectsTexts_readWithin (bound : Nat) : RejectsTexts (readWithin bound) := by
  induction bound with
  | zero =>
      intro text problem hproblem
      cases hproblem
      rfl
  | succ bound ih =>
      exact rejectsTexts_readJoined .or "or"
        (rejectsTexts_readJoined .and "and" (rejectsTexts_readNegation ih))

theorem subject?_of_ofTerm {condition : Term} {problem : Malformed}
    (hproblem : ofTerm condition = .error problem) : problem.subject? = none := by
  unfold ofTerm at hproblem
  split at hproblem
  · cases hproblem
  · split at hproblem
    · simp only [read] at hproblem
      split_ifs at hproblem
      · cases hproblem
        rfl
      · exact rejectsTexts_readWithin _ _ _ hproblem
    · cases hproblem
      rfl

end Condition
end Rulebook
