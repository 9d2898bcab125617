import Rulebook.Proofs.Condition.Reading
import Rulebook.Proofs.Double.Nearest
import Rulebook.Proofs.Term.Plain

/-!
# What conditions are read as

A condition makes few of the expressions that there are: literals, variables, and calls of operators
by their names.  A reader makes no others as long as the reader of what is nested makes none, and so
by induction on the depth no condition does.
-/

namespace Rulebook
namespace Condition

open Text

/-- An expression that a condition can be read as. -/
inductive Parsed : Term → Prop where
  | literal {value : Scalar} (hvalue : value.isNaN = false) : Parsed (.scalar value)
  | variable (name : String) : Parsed (.variable name)
  | call (operator : String) {operands : List Term}
      (hoperands : ∀ operand ∈ operands, Parsed operand) :
      Parsed (.application (.variable operator) operands)

/-- A reader makes only expressions with a property. -/
def Gives (p : Term → Prop) (reader : List Char → Except Malformed Term) : Prop :=
  ∀ text term, reader text = .ok term → p term

/-! ## Operands -/

theorem magnitude?_of_decimal? {text : List Char} {x : Float} (hx : decimal? text = some x) :
    Double.magnitude? x ≠ none := by
  simp only [decimal?, Option.bind_eq_bind] at hx
  -- The exponent is read, or it is zero if there is none.
  split at hx <;>
    · simp only [Option.bind_eq_some_iff] at hx
      obtain ⟨exponent, -, before, -, after, -, hx⟩ := hx
      split_ifs at hx
      cases hx
      exact Double.magnitude?_ofDecimal _ _ _

theorem parsed_number? {text : List Char} {number : Term} (hnumber : number? text = some number) :
    Parsed number := by
  rw [number?] at hnumber
  split_ifs at hnumber
  · obtain ⟨x, hx, rfl⟩ := Option.map_eq_some_iff.mp hnumber
    refine .literal ?_
    rw [Scalar.isNaN, Option.isNone_eq_false_iff]
    exact Option.isSome_iff_ne_none.mpr (magnitude?_of_decimal? hx)
  · obtain ⟨n, -, rfl⟩ := Option.map_eq_some_iff.mp hnumber
    exact .literal rfl

theorem parsed_constant? {text : List Char} {constant : Term}
    (hconstant : constant? text = some constant) : Parsed constant := by
  simp only [constant?] at hconstant
  split_ifs at hconstant <;> cases hconstant <;> exact .literal rfl

section Readers

variable {nested : List Char → Except Malformed Term}

theorem parsed_of_operandRead (hnested : Gives Parsed nested) {operand : List Char} {term : Term}
    (hterm : OperandRead nested operand term) : Parsed term := by
  cases hterm with
  | group _ _ hterm => exact hnested _ _ hterm
  | text _ => exact .literal rfl
  | number hnumber => exact parsed_number? hnumber
  | constant hconstant => exact parsed_constant? hconstant
  | call _ hoperands =>
      exact .call _
        (forall_mem_of_mapM (fun argument _ value hvalue => hnested _ _ hvalue) hoperands)
  | name _ => exact .variable _

theorem parsed_of_comparisonRead (hnested : Gives Parsed nested) {text : List Char} {term : Term}
    (hterm : ComparisonRead nested text term) : Parsed term := by
  cases hterm with
  | alone _ hterm => exact parsed_of_operandRead hnested hterm
  | compared _ ha hb =>
      have hsides := And.intro (parsed_of_operandRead hnested ha) (parsed_of_operandRead hnested hb)
      exact .call _ (by simpa using hsides)

theorem parsed_negated {term : Term} (hterm : Parsed term) (count : Nat) :
    Parsed (negated count term) := by
  induction count with
  | zero => exact hterm
  | succ count ih => exact .call "not" (by simpa using ih)

theorem gives_readNegation (hnested : Gives Parsed nested) :
    Gives Parsed (readNegation nested) := by
  intro text term hterm
  obtain ⟨core, rfl, hcore⟩ := exists_of_readNegation hterm
  exact parsed_negated (parsed_of_comparisonRead hnested hcore) _

theorem gives_readJoined (keyword : Keyword) (operator : String)
    {part : List Char → Except Malformed Term} (hpart : Gives Parsed part) :
    Gives Parsed (readJoined keyword operator part) := by
  intro text term hterm
  cases joinedRead_of_readJoined hterm with
  | single _ hterm => exact hpart _ _ hterm
  | several _ hoperands =>
      exact .call _ (forall_mem_of_mapM (fun piece _ value hvalue => hpart _ _ hvalue) hoperands)

end Readers

theorem gives_readWithin (bound : Nat) : Gives Parsed (readWithin bound) := by
  induction bound with
  | zero => exact fun text term hterm => nomatch hterm
  | succ bound ih =>
      exact gives_readJoined .or "or" (gives_readJoined .and "and" (gives_readNegation ih))

theorem parsed_read {text : List Char} {term : Term} (hterm : read text = .ok term) :
    Parsed term := by
  simp only [read] at hterm
  split_ifs at hterm
  exact gives_readWithin _ _ _ hterm

/-- A condition that is accepted is read as literals, variables and calls by name. -/
theorem parsed_ofTerm {condition term : Term} (hterm : ofTerm condition = .ok term) :
    Parsed term := by
  unfold ofTerm at hterm
  split at hterm
  · cases hterm
    exact .literal rfl
  · split at hterm
    · exact parsed_read hterm
    · cases hterm

end Condition
end Rulebook
