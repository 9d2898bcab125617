import Rulebook.Proofs.Condition.Nesting

/-!
# The recursion of the readers

Reading goes down the levels of a condition on the same text, takes `NOT`s off one by one, and
comes back to the top for what stands in parentheses and for the arguments of calls.  Here this
recursion is written down call by call, with no bound on how deep it goes, so that a text on which
it ran forever would have no outcome.  Each call is for a shorter text, or for a text that is no
longer and a level further down, whatever the text is.  So every text has an outcome, the one that
it is read as, and a text is rejected in four ways only.
-/

namespace Rulebook
namespace Condition

open Text

/-- The levels of a condition, from the loosest on. -/
inductive Level where
  | disjunction
  | conjunction
  | negation
  | comparison
  | operand

/-- The keyword that is looked for at a level, its operator, and the level of its parts. -/
inductive Joins : Level → Keyword → String → Level → Prop
  | or : Joins .disjunction .or "or" .conjunction
  | and : Joins .conjunction .and "and" .negation

/-- What an operand turns out to be. -/
inductive OperandForm where
  | nothing
  | group (content : List Char)
  | leaf (term : Term)
  | call (name : String) (arguments : List (List Char))
  | unreadable

/-- Finds out what an operand is; the first form that fits decides. -/
def operandForm (text : List Char) : OperandForm :=
  if text.isEmpty then .nothing
  else if text.head? = some '(' && wraps text then .group (strip (text.drop 1).dropLast)
  else match quotedContent? text with
  | some content => .leaf (.str (String.ofList content))
  | none => match number? text with
  | some number => .leaf number
  | none => match constant? text with
  | some constant => .leaf constant
  | none => match call? text with
  | some (name, arguments) =>
    .call (String.ofList name) (if (strip arguments).isEmpty then []
      else (splitCommas (strip arguments)).map strip)
  | none => if isVariableName text then .leaf (.variable (String.ofList text)) else .unreadable

mutual

/-- What comes of reading a text at a level. -/
inductive Reads : Level → List Char → Except Malformed Term → Prop
  | single {level below : Level} {keyword : Keyword} {operator : String}
      {text piece : List Char} {outcome : Except Malformed Term}
      (hjoins : Joins level keyword operator below) (hsplit : keyword.split text = [piece])
      (hbelow : Reads below text outcome) : Reads level text outcome
  | missing {level below : Level} {keyword : Keyword} {operator : String} {text : List Char}
      (hjoins : Joins level keyword operator below)
      (hsplit : ∀ piece, keyword.split text ≠ [piece])
      (hmissing : ∃ piece ∈ keyword.split text, strip piece = []) :
      Reads level text
        (.error (.missingAround (String.ofList keyword.text) (String.ofList text)))
  | joined {level below : Level} {keyword : Keyword} {operator : String} {text : List Char}
      {outcomes : Except Malformed (List Term)} (hjoins : Joins level keyword operator below)
      (hsplit : ∀ piece, keyword.split text ≠ [piece])
      (hpresent : ∀ piece ∈ keyword.split text, strip piece ≠ [])
      (hparts : ReadsAll below ((keyword.split text).map strip) outcomes) :
      Reads level text (outcomes.map (Term.call operator))
  | negated {text : List Char} {outcome : Except Malformed Term}
      (hnot : beginsNot (strip text) = true)
      (hrest : Reads .negation ((strip text).drop 3) outcome) :
      Reads .negation text (outcome.map fun term => .call "not" [term])
  | positive {text : List Char} {outcome : Except Malformed Term}
      (hnot : beginsNot (strip text) = false) (hbelow : Reads .comparison (strip text) outcome) :
      Reads .negation text outcome
  | compared {text left right : List Char} {operator : String}
      {outcomes : Except Malformed (List Term)}
      (hcut : comparison? text = some (operator, left, right))
      (hsides : ReadsAll .operand [left, right] outcomes) :
      Reads .comparison text (outcomes.map (Term.call operator))
  | alone {text : List Char} {outcome : Except Malformed Term} (hcut : comparison? text = none)
      (hbelow : Reads .operand text outcome) : Reads .comparison text outcome
  | nothing {text : List Char} (hform : operandForm (strip text) = .nothing) :
      Reads .operand text (.error .missingOperand)
  | group {text content : List Char} {outcome : Except Malformed Term}
      (hform : operandForm (strip text) = .group content)
      (hcontent : Reads .disjunction content outcome) : Reads .operand text outcome
  | leaf {text : List Char} {term : Term} (hform : operandForm (strip text) = .leaf term) :
      Reads .operand text (.ok term)
  | call {text : List Char} {name : String} {arguments : List (List Char)}
      {outcomes : Except Malformed (List Term)}
      (hform : operandForm (strip text) = .call name arguments)
      (harguments : ReadsAll .disjunction arguments outcomes) :
      Reads .operand text (outcomes.map (Term.call name))
  | unreadable {text : List Char} (hform : operandForm (strip text) = .unreadable) :
      Reads .operand text (.error (.unreadable (String.ofList (strip text))))

/-- What comes of reading texts in order; the first that is rejected decides. -/
inductive ReadsAll : Level → List (List Char) → Except Malformed (List Term) → Prop
  | done {level : Level} : ReadsAll level [] (.ok [])
  | stopped {level : Level} {text : List Char} {rest : List (List Char)} {problem : Malformed}
      (hfirst : Reads level text (.error problem)) :
      ReadsAll level (text :: rest) (.error problem)
  | next {level : Level} {text : List Char} {rest : List (List Char)} {term : Term}
      {outcomes : Except Malformed (List Term)} (hfirst : Reads level text (.ok term))
      (hrest : ReadsAll level rest outcomes) :
      ReadsAll level (text :: rest) (outcomes.map (term :: ·))

end

inductive Parses (text : List Char) : Except Malformed Term → Prop
  | empty (hempty : strip text = []) : Parses text (.error .emptyCondition)
  | condition {outcome : Except Malformed Term} (hpresent : strip text ≠ [])
      (hreads : Reads .disjunction (strip text) outcome) : Parses text outcome

/-! ## What the readers make of a text, level by level -/

def readInside (text : List Char) : Except Malformed Term :=
  readWithin (text.length + 1) text

def Level.read : Level → List Char → Except Malformed Term
  | .disjunction => readDisjunction readInside
  | .conjunction => readConjunction readInside
  | .negation => readNegation readInside
  | .comparison => readComparison readInside
  | .operand => readOperand readInside

theorem readWithin_eq {bound : Nat} {text : List Char} (htext : text.length < bound) :
    readWithin bound text = readInside text :=
  agreeBelow_readWithin htext (Nat.le_refl _) text (Nat.lt_succ_self _)

theorem readInside_eq (text : List Char) : readInside text = Level.disjunction.read text := by
  rw [readInside, readWithin, Level.read]
  exact readDisjunction_congr fun shorter hshorter => readWithin_eq hshorter

theorem takeNots_eq {first second : Nat} {text : List Char} (hfirst : text.length ≤ first)
    (hsecond : text.length ≤ second) : takeNots first text = takeNots second text := by
  have hnothing : ∀ bound, takeNots bound [] = (0, []) := by
    intro bound
    cases bound <;> rfl
  induction first generalizing second text with
  | zero =>
      obtain rfl := List.eq_nil_of_length_eq_zero (Nat.le_zero.mp hfirst)
      rw [hnothing, hnothing]
  | succ first ih =>
      cases second with
      | zero =>
          obtain rfl := List.eq_nil_of_length_eq_zero (Nat.le_zero.mp hsecond)
          rw [hnothing, hnothing]
      | succ second =>
          have hstrip := strip_length_le text
          have hrest : takeNots first ((strip text).drop 3) =
              takeNots second ((strip text).drop 3) := by
            apply ih <;> rw [List.length_drop] <;> omega
          simp only [takeNots, hrest]

theorem ne_nil_of_beginsNot {text : List Char} (hnot : beginsNot text = true) : text ≠ [] := by
  rintro rfl
  cases hnot

section Equations

variable {text : List Char} {level below : Level} {keyword : Keyword} {operator : String}

theorem read_joins (hjoins : Joins level keyword operator below) (text : List Char) :
    level.read text = readJoined keyword operator below.read text := by
  cases hjoins <;> rfl

theorem read_single (hjoins : Joins level keyword operator below) {piece : List Char}
    (hsplit : keyword.split text = [piece]) : level.read text = below.read text := by
  simp only [read_joins hjoins, readJoined, hsplit]

theorem readJoined_of_several {part : List Char → Except Malformed Term}
    (hsplit : ∀ piece, keyword.split text ≠ [piece]) :
    readJoined keyword operator part text =
      if (keyword.split text).any fun p => (strip p).isEmpty then
        .error (.missingAround (String.ofList keyword.text) (String.ofList text))
      else (((keyword.split text).map strip).mapM part).map (Term.call operator) := by
  unfold readJoined
  split
  · exact absurd ‹_› (hsplit _)
  · rw [List.mapM_map, Function.comp_def]
    cases (keyword.split text).mapM fun p => part (strip p) <;> rfl

theorem read_missing (hjoins : Joins level keyword operator below)
    (hsplit : ∀ piece, keyword.split text ≠ [piece])
    (hmissing : ∃ piece ∈ keyword.split text, strip piece = []) :
    level.read text =
      .error (.missingAround (String.ofList keyword.text) (String.ofList text)) := by
  rw [read_joins hjoins, readJoined_of_several hsplit, if_pos]
  simpa only [List.any_eq_true, List.isEmpty_iff] using hmissing

theorem read_joined (hjoins : Joins level keyword operator below)
    (hsplit : ∀ piece, keyword.split text ≠ [piece])
    (hpresent : ∀ piece ∈ keyword.split text, strip piece ≠ []) :
    level.read text =
      (((keyword.split text).map strip).mapM below.read).map (Term.call operator) := by
  rw [read_joins hjoins, readJoined_of_several hsplit, if_neg]
  simpa only [List.any_eq_true, List.isEmpty_iff, not_exists, not_and] using hpresent

/-- One negation is taken off, and the others are left to the reading of what follows. -/
theorem read_negation_of_beginsNot (hnot : beginsNot (strip text) = true) :
    Level.negation.read text =
      (Level.negation.read ((strip text).drop 3)).map fun term => .call "not" [term] := by
  have hstrip := strip_length_le text
  have hpos := List.length_pos_iff.mpr (ne_nil_of_beginsNot hnot)
  obtain ⟨bound, hbound⟩ := Nat.exists_eq_add_of_le' (hpos.trans_le hstrip)
  have hrest : ((strip text).drop 3).length ≤ bound := by
    rw [List.length_drop]
    omega
  have hnots : takeNots text.length text =
      ((takeNots ((strip text).drop 3).length ((strip text).drop 3)).1 + 1,
        (takeNots ((strip text).drop 3).length ((strip text).drop 3)).2) := by
    rw [hbound, takeNots, takeNots_eq hrest (Nat.le_refl _)]
    simp only [hnot, if_true]
  simp only [Level.read, readNegation, hnots]
  cases readComparison readInside (takeNots _ ((strip text).drop 3)).2 <;> rfl

theorem read_negation_of_not (hnot : beginsNot (strip text) = false) :
    Level.negation.read text = Level.comparison.read (strip text) := by
  have hnots : takeNots text.length text = (0, strip text) := by
    cases text.length <;> simp [takeNots, hnot]
  simp only [Level.read, readNegation, hnots]
  cases readComparison readInside (strip text) <;> rfl

theorem read_comparison (text : List Char) :
    Level.comparison.read text = match comparison? text with
      | some (operator, left, right) =>
        ([left, right].mapM Level.operand.read).map (Term.call operator)
      | none => Level.operand.read text := by
  simp only [Level.read, readComparison]
  cases comparison? text with
  | none => rfl
  | some cut =>
      obtain ⟨operator, left, right⟩ := cut
      simp only [List.mapM_cons, List.mapM_nil]
      cases readOperand readInside left with
      | error problem => rfl
      | ok a => cases readOperand readInside right <;> rfl

theorem read_operand (text : List Char) :
    Level.operand.read text = match operandForm (strip text) with
      | .nothing => .error .missingOperand
      | .group content => Level.disjunction.read content
      | .leaf term => .ok term
      | .call name arguments => (arguments.mapM Level.disjunction.read).map (Term.call name)
      | .unreadable => .error (.unreadable (String.ofList (strip text))) := by
  have hinside : Level.disjunction.read = readInside := funext fun t => (readInside_eq t).symm
  rw [hinside, Level.read, readOperand]
  simp only [operandForm]
  generalize strip text = core
  by_cases hempty : core.isEmpty = true
  · simp only [hempty, if_true]
  by_cases hgroup : (decide (core.head? = some '(') && wraps core) = true
  · simp only [hempty, hgroup, Bool.false_eq_true, if_true, if_false]
  simp only [hempty, hgroup, Bool.false_eq_true, if_false]
  cases quotedContent? core with
  | some content => rfl
  | none =>
  cases number? core with
  | some number => rfl
  | none =>
  cases constant? core with
  | some constant => rfl
  | none =>
  cases call? core with
  | none =>
      dsimp only
      split_ifs <;> rfl
  | some call =>
      obtain ⟨name, arguments⟩ := call
      dsimp only
      by_cases hnone : (strip arguments).isEmpty = true
      · simp only [hnone, if_true]
        rfl
      · simp only [hnone, Bool.false_eq_true, if_false, List.mapM_map, Function.comp_def]
        cases (splitCommas (strip arguments)).mapM fun argument => readInside (strip argument) <;>
          rfl

end Equations

section Items

variable {α β ε : Type} {read : α → Except ε β} {item : α} {rest : List α}

theorem mapM_cons_of_ok {value : β} (hfirst : read item = .ok value) :
    (item :: rest).mapM read = (rest.mapM read).map (value :: ·) := by
  rw [List.mapM_cons, hfirst]
  cases rest.mapM read <;> rfl

theorem mapM_cons_of_error {problem : ε} (hfirst : read item = .error problem) :
    (item :: rest).mapM read = .error problem := by
  rw [List.mapM_cons, hfirst]
  rfl

end Items

/-! ## Every text has one outcome -/

mutual

theorem Reads.eq_read {level : Level} {text : List Char} {outcome : Except Malformed Term} :
    Reads level text outcome → outcome = level.read text
  | .single hjoins hsplit hbelow => by rw [read_single hjoins hsplit, hbelow.eq_read]
  | .missing hjoins hsplit hmissing => by rw [read_missing hjoins hsplit hmissing]
  | .joined hjoins hsplit hpresent hparts => by
      rw [read_joined hjoins hsplit hpresent, hparts.eq_mapM]
  | .negated hnot hrest => by rw [read_negation_of_beginsNot hnot, hrest.eq_read]
  | .positive hnot hbelow => by rw [read_negation_of_not hnot, hbelow.eq_read]
  | .compared hcut hsides => by rw [read_comparison, hcut, hsides.eq_mapM]
  | .alone hcut hbelow => by rw [read_comparison, hcut, hbelow.eq_read]
  | .nothing hform => by rw [read_operand, hform]
  | .group hform hcontent => by rw [read_operand, hform, hcontent.eq_read]
  | .leaf hform => by rw [read_operand, hform]
  | .call hform harguments => by rw [read_operand, hform, harguments.eq_mapM]
  | .unreadable hform => by rw [read_operand, hform]

theorem ReadsAll.eq_mapM {level : Level} {texts : List (List Char)}
    {outcomes : Except Malformed (List Term)} :
    ReadsAll level texts outcomes → outcomes = texts.mapM level.read
  | .done => rfl
  | .stopped hfirst => (mapM_cons_of_error hfirst.eq_read.symm).symm
  | .next hfirst hrest => by rw [mapM_cons_of_ok hfirst.eq_read.symm, hrest.eq_mapM]

end

theorem readsAll_mapM {level : Level} {texts : List (List Char)}
    (htexts : ∀ text ∈ texts, Reads level text (level.read text)) :
    ReadsAll level texts (texts.mapM level.read) := by
  induction texts with
  | nil => exact .done
  | cons text rest ih =>
      obtain ⟨hfirst, hrest⟩ := List.forall_mem_cons.mp htexts
      cases hread : level.read text with
      | error problem =>
          rw [mapM_cons_of_error hread]
          exact .stopped (hread ▸ hfirst)
      | ok term =>
          rw [mapM_cons_of_ok hread]
          exact .next (hread ▸ hfirst) (ih hrest)

def Level.rank : Level → Nat
  | .disjunction => 4
  | .conjunction => 3
  | .negation => 2
  | .comparison => 1
  | .operand => 0

/-- What gets smaller from call to call: the text, or else the level. -/
def work (level : Level) (text : List Char) : Nat :=
  5 * text.length + level.rank

theorem Joins.rank_lt {level below : Level} {keyword : Keyword} {operator : String}
    (hjoins : Joins level keyword operator below) : below.rank < level.rank := by
  cases hjoins <;> decide

theorem Level.rank_le (level : Level) : level.rank ≤ 4 := by
  cases level <;> decide

theorem work_lt_of_length_lt {level other : Level} {text shorter : List Char}
    (hlength : shorter.length < text.length) : work other shorter < work level text := by
  have hother := other.rank_le
  unfold work
  omega

theorem work_lt_of_rank_lt {level below : Level} {text part : List Char}
    (hlength : part.length ≤ text.length) (hrank : below.rank < level.rank) :
    work below part < work level text := by
  unfold work
  omega

section Step

variable {level below : Level} {keyword : Keyword} {operator : String} {text : List Char}

theorem reads_joins (hjoins : Joins level keyword operator below)
    (hcalls : ∀ other part, work other part < work level text →
      Reads other part (other.read part)) : Reads level text (level.read text) := by
  by_cases hsingle : ∃ piece, keyword.split text = [piece]
  · obtain ⟨piece, hsplit⟩ := hsingle
    rw [read_single hjoins hsplit]
    exact .single hjoins hsplit (hcalls _ _ (work_lt_of_rank_lt (Nat.le_refl _) hjoins.rank_lt))
  · have hsplit : ∀ piece, keyword.split text ≠ [piece] := fun piece hpiece =>
      hsingle ⟨piece, hpiece⟩
    by_cases hmissing : ∃ piece ∈ keyword.split text, strip piece = []
    · rw [read_missing hjoins hsplit hmissing]
      exact .missing hjoins hsplit hmissing
    · have hpresent : ∀ piece ∈ keyword.split text, strip piece ≠ [] := fun piece hpiece hstrip =>
        hmissing ⟨piece, hpiece, hstrip⟩
      rw [read_joined hjoins hsplit hpresent]
      refine .joined hjoins hsplit hpresent (readsAll_mapM fun part hpart => ?_)
      obtain ⟨piece, hpiece, rfl⟩ := List.mem_map.mp hpart
      have hlength := (strip_length_le piece).trans (Keyword.length_le_of_mem_split hpiece)
      exact hcalls _ _ (work_lt_of_rank_lt hlength hjoins.rank_lt)

theorem reads_negation (hcalls : ∀ other part, work other part < work .negation text →
      Reads other part (other.read part)) :
    Reads .negation text (Level.negation.read text) := by
  have hstrip := strip_length_le text
  cases hnot : beginsNot (strip text) with
  | true =>
      have hpos := List.length_pos_iff.mpr (ne_nil_of_beginsNot hnot)
      have hshorter : ((strip text).drop 3).length < text.length := by
        rw [List.length_drop]
        omega
      rw [read_negation_of_beginsNot hnot]
      exact .negated hnot (hcalls _ _ (work_lt_of_length_lt hshorter))
  | false =>
      rw [read_negation_of_not hnot]
      exact .positive hnot (hcalls _ _ (work_lt_of_rank_lt hstrip (by decide)))

theorem reads_comparison (hcalls : ∀ other part, work other part < work .comparison text →
      Reads other part (other.read part)) :
    Reads .comparison text (Level.comparison.read text) := by
  rw [read_comparison]
  cases hcut : comparison? text with
  | none => exact .alone hcut (hcalls _ _ (work_lt_of_rank_lt (Nat.le_refl _) (by decide)))
  | some cut =>
      obtain ⟨operator, left, right⟩ := cut
      obtain ⟨hleft, hright⟩ := length_le_of_comparison? hcut
      refine .compared hcut (readsAll_mapM (List.forall_mem_cons.mpr ⟨?_, ?_⟩))
      · exact hcalls _ _ (work_lt_of_rank_lt hleft (by decide))
      · exact List.forall_mem_singleton.mpr
          (hcalls _ _ (work_lt_of_rank_lt hright (by decide)))

/-- What an operand has inside it: the content of its parentheses, or its arguments. -/
def OperandForm.inside : OperandForm → List (List Char)
  | .group content => [content]
  | .call _ arguments => arguments
  | .nothing | .leaf _ | .unreadable => []

/-- What an operand has inside it is shorter, for it stands in parentheses. -/
theorem length_lt_of_mem_inside {part : List Char} (hpart : part ∈ (operandForm text).inside) :
    part.length < text.length := by
  unfold operandForm at hpart
  split at hpart
  · cases hpart
  rename_i hempty
  split at hpart
  · obtain rfl := List.mem_singleton.mp hpart
    have hne : text ≠ [] := by simpa using hempty
    exact (strip_length_le _).trans_lt (length_content_lt hne)
  split at hpart
  · cases hpart
  split at hpart
  · cases hpart
  split at hpart
  · cases hpart
  split at hpart
  · rename_i name arguments hcall
    have harguments := length_lt_of_call? hcall
    have hstrip := strip_length_le arguments
    rw [OperandForm.inside] at hpart
    split at hpart
    · cases hpart
    · obtain ⟨argument, hargument, rfl⟩ := List.mem_map.mp hpart
      have hlength := length_le_of_mem_splitCommasFrom hargument
      have hargumentStrip := strip_length_le argument
      rw [List.length_nil] at hlength
      omega
  split at hpart
  · cases hpart
  · cases hpart

theorem reads_operand (hcalls : ∀ other part, work other part < work .operand text →
      Reads other part (other.read part)) :
    Reads .operand text (Level.operand.read text) := by
  have hinside : ∀ part ∈ (operandForm (strip text)).inside,
      Reads .disjunction part (Level.disjunction.read part) := fun part hpart =>
    hcalls _ _ (work_lt_of_length_lt ((length_lt_of_mem_inside hpart).trans_le
      (strip_length_le text)))
  rw [read_operand]
  cases hform : operandForm (strip text) with
  | nothing => exact .nothing hform
  | group content =>
      rw [hform] at hinside
      exact .group hform (hinside _ List.mem_cons_self)
  | leaf term => exact .leaf hform
  | call name arguments =>
      rw [hform] at hinside
      exact .call hform (readsAll_mapM hinside)
  | unreadable => exact .unreadable hform

end Step

theorem reads_read (level : Level) (text : List Char) : Reads level text (level.read text) := by
  induction hwork : work level text using Nat.strong_induction_on generalizing level text with
  | _ bound ih =>
      subst hwork
      have hcalls : ∀ other part, work other part < work level text →
          Reads other part (other.read part) := fun other part hless => ih _ hless _ _ rfl
      cases level with
      | disjunction => exact reads_joins .or hcalls
      | conjunction => exact reads_joins .and hcalls
      | negation => exact reads_negation hcalls
      | comparison => exact reads_comparison hcalls
      | operand => exact reads_operand hcalls

/-- The ways in which a text fails to be a condition. -/
inductive Unreadable : Malformed → Prop
  | empty : Unreadable .emptyCondition
  | operand : Unreadable .missingOperand
  | around (keyword : Keyword) (text : List Char) :
      Unreadable (.missingAround (String.ofList keyword.text) (String.ofList text))
  | text (text : List Char) : Unreadable (.unreadable (String.ofList text))

theorem eq_error_of_map_eq_error {α β ε : Type} {f : α → β} {result : Except ε α} {problem : ε}
    (hproblem : result.map f = .error problem) : result = .error problem := by
  cases result with
  | error other => exact congrArg Except.error (Except.error.inj hproblem)
  | ok value => cases hproblem

mutual

theorem Reads.unreadable_of_error {level : Level} {text : List Char}
    {outcome : Except Malformed Term} {problem : Malformed} :
    Reads level text outcome → outcome = .error problem → Unreadable problem
  | .single _ _ hbelow, hproblem => hbelow.unreadable_of_error hproblem
  | .missing _ _ _, hproblem => Except.error.inj hproblem ▸ .around _ _
  | .joined _ _ _ hparts, hproblem =>
      hparts.unreadable_of_error (eq_error_of_map_eq_error hproblem)
  | .negated _ hrest, hproblem => hrest.unreadable_of_error (eq_error_of_map_eq_error hproblem)
  | .positive _ hbelow, hproblem => hbelow.unreadable_of_error hproblem
  | .compared _ hsides, hproblem =>
      hsides.unreadable_of_error (eq_error_of_map_eq_error hproblem)
  | .alone _ hbelow, hproblem => hbelow.unreadable_of_error hproblem
  | .nothing _, hproblem => Except.error.inj hproblem ▸ .operand
  | .group _ hcontent, hproblem => hcontent.unreadable_of_error hproblem
  | .call _ harguments, hproblem =>
      harguments.unreadable_of_error (eq_error_of_map_eq_error hproblem)
  | .unreadable _, hproblem => Except.error.inj hproblem ▸ .text _

theorem ReadsAll.unreadable_of_error {level : Level} {texts : List (List Char)}
    {outcomes : Except Malformed (List Term)} {problem : Malformed} :
    ReadsAll level texts outcomes → outcomes = .error problem → Unreadable problem
  | .stopped hfirst, hproblem =>
      hfirst.unreadable_of_error (congrArg Except.error (Except.error.inj hproblem))
  | .next _ hrest, hproblem => hrest.unreadable_of_error (eq_error_of_map_eq_error hproblem)

end

theorem Parses.unreadable_of_error {text : List Char} {problem : Malformed}
    (hparses : Parses text (.error problem)) : Unreadable problem := by
  cases hparses with
  | empty hempty => exact .empty
  | condition hpresent hreads => exact hreads.unreadable_of_error rfl

theorem parses_iff {text : List Char} {outcome : Except Malformed Term} :
    Parses text outcome ↔ outcome = read text := by
  have hread : read text = if (strip text).isEmpty then .error .emptyCondition
      else Level.disjunction.read (strip text) := by
    rw [← readInside_eq]
    rfl
  constructor
  · intro hparses
    cases hparses with
    | empty hempty => simp [hread, hempty]
    | condition hpresent hreads =>
        rw [hread, if_neg (by simpa using hpresent)]
        exact hreads.eq_read
  · rintro rfl
    by_cases hempty : strip text = []
    · rw [hread, hempty]
      exact .empty hempty
    · rw [hread, if_neg (by simpa using hempty)]
      exact .condition hempty (reads_read _ _)

/-- On every text the recursion comes to an end, and to one only.  It accepts the text or rejects
it as no condition, and checking a text says which, with what is said about it. -/
theorem parses_ofTerm (text : String) :
    (∀ outcome, Parses text.toList outcome ↔ outcome = ofTerm (.str text)) ∧
      (∀ problem, Parses text.toList (.error problem) → Unreadable problem) ∧
      (validate (.str text) = (true, none) ↔ ∃ term, Parses text.toList (.ok term)) ∧
      ∀ message, validate (.str text) = (false, some message) ↔
        ∃ problem, Parses text.toList (.error problem) ∧ problem.text = message := by
  have hparses : ∀ outcome, Parses text.toList outcome ↔ outcome = ofTerm (.str text) :=
    fun outcome => parses_iff
  refine ⟨hparses, fun problem => Parses.unreadable_of_error, ?accepted, ?rejected⟩
  case accepted =>
    simp only [hparses, validate]
    cases ofTerm (.str text) with
    | ok term => simp
    | error problem => simp
  case rejected =>
    intro message
    simp only [hparses, validate]
    cases ofTerm (.str text) with
    | ok term => simp
    | error problem => simp

end Condition
end Rulebook
