import Rulebook.Proofs.Condition.Pieces
import Rulebook.Proofs.Condition.Recursion
import Rulebook.Proofs.Condition.Tree

/-!
# The fragment that conditions are read into

A condition is read as a tree of literals, variables and calls by name, and the calls that its own
operators make have as many operands as these operators take.  A call that is written as one may
have any number of operands, but its name is never one of the keywords `AND` and `OR`, because the
text would have been cut there.  So this is proved together with what is handed down the levels:
what is read below a keyword is free of it.
-/

namespace Rulebook
namespace Condition

open Text

inductive InFragment : Term → Prop
  | int (n : Int) : InFragment (.int n)
  | float (x : Float) : InFragment (.float x)
  | text (s : String) : InFragment (.str s)
  | bool (b : Bool) : InFragment (.bool b)
  | null : InFragment .null
  | named {name : List Char} (hname : isVariableName name = true) :
      InFragment (.variable (String.ofList name))
  | joined (keyword : Keyword) {operands : List Term} (hlength : 2 ≤ operands.length)
      (hoperands : ∀ operand ∈ operands, InFragment operand) :
      InFragment (.call keyword.operator operands)
  | negated {operand : Term} (hoperand : InFragment operand) : InFragment (.call "not" [operand])
  | compared (comparison : Comparison) {left right : Term} (hleft : InFragment left)
      (hright : InFragment right) : InFragment (.call comparison.operator [left, right])
  | called {name : List Char} {operands : List Term} (hname : isCallName name = true)
      (hkeyword : ∀ keyword : Keyword, name.map Char.toUpper ≠ keyword.text)
      (hoperands : ∀ operand ∈ operands, InFragment operand) :
      InFragment (.call (String.ofList name) operands)

/-- What is handed down to a level is free of the keywords of the levels above. -/
def Level.Clear : Level → List Char → Prop
  | .disjunction, _ => True
  | .conjunction, text => Keyword.or.Free text
  | .negation, text | .comparison, text | .operand, text => ∀ keyword : Keyword, keyword.Free text

namespace Joins

variable {level below : Level} {keyword : Keyword} {operator : String} {text : List Char}

theorem operator_eq (hjoins : Joins level keyword operator below) :
    operator = keyword.operator := by
  cases hjoins <;> rfl

theorem clear_of_free (hjoins : Joins level keyword operator below) (hclear : level.Clear text)
    (hfree : keyword.Free text) : below.Clear text := by
  cases hjoins with
  | or => exact hfree
  | and =>
      intro other
      cases other with
      | or => exact hclear
      | and => exact hfree

theorem clear_piece (hjoins : Joins level keyword operator below) (hclear : level.Clear text)
    {piece : List Char} (hpiece : piece ∈ keyword.split text) : below.Clear (strip piece) := by
  have hown := (Keyword.free_of_mem_split hpiece).strip
  cases hjoins with
  | or => exact hown
  | and =>
      intro other
      cases other with
      | or => exact (Keyword.Free.of_mem_split hclear hpiece).strip
      | and => exact hown

end Joins

/-! ## Operands -/

theorem inFragment_number? {text : List Char} {number : Term}
    (hnumber : number? text = some number) : InFragment number := by
  rw [number?] at hnumber
  split_ifs at hnumber
  · obtain ⟨x, -, rfl⟩ := Option.map_eq_some_iff.mp hnumber
    exact .float x
  · obtain ⟨n, -, rfl⟩ := Option.map_eq_some_iff.mp hnumber
    exact .int n

theorem inFragment_constant? {text : List Char} {constant : Term}
    (hconstant : constant? text = some constant) : InFragment constant := by
  simp only [constant?] at hconstant
  split_ifs at hconstant <;> cases hconstant
  · exact .bool true
  · exact .bool false
  · exact .null

/-- What is known of the form of an operand: a leaf is in the fragment, and a call is written as
one. -/
inductive IsForm (text : List Char) : OperandForm → Prop
  | nothing : IsForm text .nothing
  | group (content : List Char) : IsForm text (.group content)
  | leaf {term : Term} (hterm : InFragment term) : IsForm text (.leaf term)
  | call {name content : List Char} (hcall : call? text = some (name, content))
      (arguments : List (List Char)) : IsForm text (.call (String.ofList name) arguments)
  | unreadable : IsForm text .unreadable

theorem isForm_operandForm (text : List Char) : IsForm text (operandForm text) := by
  unfold operandForm
  split
  · exact .nothing
  split
  · exact .group _
  split
  · exact .leaf (.text _)
  split
  · exact .leaf (inFragment_number? ‹_›)
  split
  · exact .leaf (inFragment_constant? ‹_›)
  split
  · exact .call ‹_› _
  split
  · exact .leaf (.named ‹_›)
  · exact .unreadable

theorem inFragment_of_form_leaf {text : List Char} {term : Term}
    (hform : operandForm text = .leaf term) : InFragment term := by
  have hleaf := isForm_operandForm text
  rw [hform] at hleaf
  cases hleaf with
  | leaf hterm => exact hterm

/-- What is called in a text that is free of keywords is none of them. -/
theorem inFragment_of_form_call {text : List Char} {name : String} {arguments : List (List Char)}
    (hfree : ∀ keyword : Keyword, keyword.Free text)
    (hform : operandForm text = .call name arguments)
    {operands : List Term} (hoperands : ∀ operand ∈ operands, InFragment operand) :
    InFragment (.call name operands) := by
  have hcalled := isForm_operandForm text
  rw [hform] at hcalled
  cases hcalled with
  | call hcall =>
      obtain ⟨rest, -, hname, -⟩ := exists_of_call? hcall
      exact .called hname (fun keyword => (hfree keyword).name_ne hcall) hoperands

theorem inFragment_joined {level below : Level} {keyword : Keyword} {operator : String}
    (hjoins : Joins level keyword operator below) {text : List Char}
    (hsplit : ∀ piece, keyword.split text ≠ [piece]) {operands : List Term}
    (hlength : operands.length = ((keyword.split text).map strip).length)
    (hoperands : ∀ operand ∈ operands, InFragment operand) :
    InFragment (.call operator operands) := by
  rw [hjoins.operator_eq]
  refine .joined keyword ?_ hoperands
  rw [hlength, List.length_map]
  have hne : keyword.split text ≠ [] := Keyword.splitFrom_ne_nil
  generalize keyword.split text = pieces at hsplit hne
  match pieces with
  | [] => exact absurd rfl hne
  | [piece] => exact absurd rfl (hsplit piece)
  | _ :: _ :: _ => simp

theorem inFragment_compared {text left right : List Char} {operator : String}
    (hcut : comparison? text = some (operator, left, right)) {operands : List Term}
    (hlength : operands.length = 2) (hoperands : ∀ operand ∈ operands, InFragment operand) :
    InFragment (.call operator operands) := by
  obtain ⟨⟨symbol, name⟩, hmem, hfound⟩ := List.exists_of_findSome?_eq_some hcut
  obtain ⟨⟨front, back⟩, -, heq⟩ := Option.map_eq_some_iff.mp hfound
  cases heq
  rw [Comparison.comparisons_eq, List.mem_map] at hmem
  obtain ⟨comparison, -, hentry⟩ := hmem
  cases hentry
  obtain ⟨a, b, rfl⟩ := List.length_eq_two.mp hlength
  exact .compared comparison (hoperands a (by simp)) (hoperands b (by simp))

/-! ## Levels -/

mutual

/-- What a text is read as at a level is in the fragment, if the text is as free of keywords as
what is handed down to that level. -/
theorem Reads.inFragment {level : Level} {text : List Char} {outcome : Except Malformed Term}
    {term : Term} :
    Reads level text outcome → level.Clear text → outcome = .ok term → InFragment term
  | .single hjoins hsplit hbelow, hclear, hterm =>
      hbelow.inFragment (hjoins.clear_of_free hclear (Keyword.free_of_split hsplit)) hterm
  | .joined hjoins hsplit _ hparts, hclear, hterm => by
      obtain ⟨operands, houtcomes, rfl⟩ := exists_of_map_eq_ok hterm
      have hpieces := List.forall_mem_map.mpr fun piece hpiece => hjoins.clear_piece hclear hpiece
      obtain ⟨hlength, hoperands⟩ := hparts.inFragment hpieces houtcomes
      exact inFragment_joined hjoins hsplit hlength hoperands
  | .negated hnot hrest, hclear, hterm => by
      obtain ⟨operand, houtcome, rfl⟩ := exists_of_map_eq_ok hterm
      exact .negated (hrest.inFragment (fun keyword => (hclear keyword).strip.behind_not hnot)
        houtcome)
  | .positive _ hbelow, hclear, hterm =>
      hbelow.inFragment (fun keyword => (hclear keyword).strip) hterm
  | .compared hcut hsides, hclear, hterm => by
      obtain ⟨operands, houtcomes, rfl⟩ := exists_of_map_eq_ok hterm
      have hleft : Level.operand.Clear _ := fun keyword => ((hclear keyword).of_comparison? hcut).1
      have hright : Level.operand.Clear _ := fun keyword => ((hclear keyword).of_comparison? hcut).2
      obtain ⟨hlength, hoperands⟩ := hsides.inFragment
        (List.forall_mem_cons.mpr ⟨hleft, List.forall_mem_singleton.mpr hright⟩) houtcomes
      exact inFragment_compared hcut hlength hoperands
  | .alone _ hbelow, hclear, hterm => hbelow.inFragment hclear hterm
  | .group _ hcontent, _, hterm => hcontent.inFragment trivial hterm
  | .leaf hform, _, hterm => Except.ok.inj hterm ▸ inFragment_of_form_leaf hform
  | .call hform harguments, hclear, hterm => by
      obtain ⟨operands, houtcomes, rfl⟩ := exists_of_map_eq_ok hterm
      exact inFragment_of_form_call (fun keyword => (hclear keyword).strip) hform
        (harguments.inFragment (fun _ _ => trivial) houtcomes).2

theorem ReadsAll.inFragment {level : Level} {texts : List (List Char)}
    {outcomes : Except Malformed (List Term)} {terms : List Term} :
    ReadsAll level texts outcomes → (∀ text ∈ texts, level.Clear text) → outcomes = .ok terms →
      terms.length = texts.length ∧ ∀ term ∈ terms, InFragment term
  | .done, _, hterms => by
      cases hterms
      exact ⟨rfl, fun term hterm => absurd hterm List.not_mem_nil⟩
  | .next hfirst hrest, hclear, hterms => by
      obtain ⟨rest, houtcomes, rfl⟩ := exists_of_map_eq_ok hterms
      obtain ⟨hhead, htail⟩ := List.forall_mem_cons.mp hclear
      obtain ⟨hlength, hothers⟩ := hrest.inFragment htail houtcomes
      exact ⟨congrArg Nat.succ hlength,
        List.forall_mem_cons.mpr ⟨hfirst.inFragment hhead rfl, hothers⟩⟩

end

theorem inFragment_read {text : List Char} {term : Term} (hterm : read text = .ok term) :
    InFragment term := by
  have hparses := parses_iff.mpr hterm.symm
  cases hparses with
  | condition _ hreads => exact hreads.inFragment trivial rfl

end Condition
end Rulebook
