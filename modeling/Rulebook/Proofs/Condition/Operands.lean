import Rulebook.Proofs.Condition.Reading
import Rulebook.Proofs.Condition.Spacing

/-!
# Operands

A condition comes down to its operands: what is left of the text once it has been cut at the
keywords, freed of its negations and cut at a comparison.  What an operand has in parentheses, or
for the arguments of a call, are conditions again, with operands of their own.  They are listed here
in the way in which the readers come to them, and each of them stands in the text outside of quotes.
-/

namespace Rulebook
namespace Condition

open Text

/-- The conditions inside of an operand: the content of the parentheses around it, or the arguments
of a call. -/
def nestedIn (operand : List Char) : List (List Char) :=
  if operand.head? = some '(' && wraps operand then [strip (operand.drop 1).dropLast]
  else match call? operand with
  | some (_, arguments) => (argumentsOf arguments).map strip
  | none => []

namespace Operands

/-- An operand, and those that `nested` lists of the conditions inside of it. -/
def ofOperand (nested : List Char → List (List Char)) (text : List Char) : List (List Char) :=
  strip text :: (nestedIn (strip text)).flatMap nested

def ofComparison (nested : List Char → List (List Char)) (text : List Char) : List (List Char) :=
  match comparison? text with
  | some (_, left, right) => ofOperand nested left ++ ofOperand nested right
  | none => ofOperand nested text

def ofNegation (nested : List Char → List (List Char)) (text : List Char) : List (List Char) :=
  ofComparison nested (takeNots text.length text).2

def ofJoined (keyword : Keyword) (part : List Char → List (List Char)) (text : List Char) :
    List (List Char) :=
  match keyword.split text with
  | [_] => part text
  | parts => parts.flatMap fun p => part (strip p)

def within : Nat → List Char → List (List Char)
  | 0, _ => []
  | bound + 1, text => ofJoined .or (ofJoined .and (ofNegation (within bound))) text

end Operands

/-- The operands of a condition.  As for the readers, its length is bound enough. -/
def operands (text : List Char) : List (List Char) :=
  Operands.within ((strip text).length + 1) (strip text)

/-! ## Where a part stands -/

/-- A part stands in a text at a place that is outside of quotes. -/
def StandsIn (text part : List Char) : Prop :=
  ∃ front back, text = front ++ part ++ back ∧ (Scan.start.after front).quote = none

/-- How deep a text stands does not matter to its quotes. -/
theorem Scan.quote_after {scan other : Scan} (hquote : other.quote = scan.quote)
    (text : List Char) : (other.after text).quote = (scan.after text).quote := by
  induction text generalizing scan other with
  | nil => exact hquote
  | cons c rest ih => exact ih (Scan.quote_step hquote c)

namespace StandsIn

variable {text part inner : List Char}

theorem trans (hpart : StandsIn text part) (hinner : StandsIn part inner) :
    StandsIn text inner := by
  obtain ⟨front, back, rfl, hfront⟩ := hpart
  obtain ⟨front', back', rfl, hfront'⟩ := hinner
  refine ⟨front ++ front', back' ++ back, by simp, ?_⟩
  have hstart : (Scan.start.after front).quote = Scan.start.quote := hfront
  rw [Scan.after_append, Scan.quote_after hstart, hfront']

theorem before (front back : List Char) : StandsIn (front ++ back) front :=
  ⟨[], back, by simp, rfl⟩

theorem behind (front back : List Char) (hfront : (Scan.start.after front).quote = none) :
    StandsIn (front ++ back) back :=
  ⟨front, [], by simp, hfront⟩

theorem behind_plain (front back : List Char) (hfront : front.all isPlain = true) :
    StandsIn (front ++ back) back := by
  apply behind
  rw [Scan.after_of_quote rfl _ hfront]
  rfl

theorem strip (text : List Char) : StandsIn text (strip text) := by
  have hlead : StandsIn text (text.dropWhile isBlank) := by
    have hblanks : (text.takeWhile isBlank).all isPlain = true := by
      rw [List.all_eq_true]
      exact fun c hc => (not_of_isBlank (List.mem_takeWhile_imp hc)).2.1
    have hsplit := behind_plain _ (text.dropWhile isBlank) hblanks
    rwa [List.takeWhile_append_dropWhile] at hsplit
  have htrail : ∀ text : List Char, StandsIn text (text.reverse.dropWhile isBlank).reverse := by
    intro text
    have hsplit := before (text.reverse.dropWhile isBlank).reverse
      (text.reverse.takeWhile isBlank).reverse
    rwa [← List.reverse_append, List.takeWhile_append_dropWhile, List.reverse_reverse] at hsplit
  exact hlead.trans (htrail _)

theorem content (hparen : text.head? = some '(') :
    StandsIn text (text.drop 1).dropLast := by
  obtain ⟨rest, rfl⟩ := List.head?_eq_some_iff.mp hparen
  have hinside : StandsIn ('(' :: rest) rest := behind ['('] rest rfl
  have hlast := before (rest.take (rest.length - 1)) (rest.drop (rest.length - 1))
  rw [List.take_append_drop, ← List.dropLast_eq_take] at hlast
  exact hinside.trans hlast

end StandsIn

/-! ## Cuts -/

theorem StandsIn.behind_word (front word : List Char) {text : List Char}
    (hfront : (Scan.start.after front).quote = none) (hword : word.all isNameChar = true)
    (hbegins : beginsWith word text = true) :
    StandsIn (front ++ text) (text.drop word.length) := by
  have hscan := Scan.after_word hfront word hword hbegins
  have hbehind := behind (front ++ text.take word.length) (text.drop word.length)
    (by rw [Scan.after_append, hscan, hfront])
  rwa [List.append_assoc, List.take_append_drop] at hbehind

/-- The current part begins outside of quotes, and so do all that follow. -/
theorem Keyword.standsIn_of_mem_splitFrom {keyword : Keyword} (skip : Nat) {scan : Scan}
    {before : Option Char} (part : List Char) {text piece : List Char}
    (hscan : (Scan.start.after part.reverse).quote = (scan.after (text.take skip)).quote)
    (hpiece : piece ∈ keyword.splitFrom skip scan before part text) :
    StandsIn (part.reverse ++ text.drop skip) piece := by
  induction text generalizing skip scan before part with
  | nil =>
      rw [splitFrom, List.mem_singleton] at hpiece
      rw [hpiece]
      exact .before _ _
  | cons c rest ih =>
      rw [splitFrom.eq_def] at hpiece
      cases skip with
      | succ skip => exact ih skip part hscan hpiece
      | zero =>
          simp only at hpiece
          split_ifs at hpiece with hstands
          · rcases List.mem_cons.mp hpiece with rfl | hpiece
            · exact .before _ _
            · -- A part begins behind a keyword, whose letters leave the scan as it was at the top.
              simp only [standsAt, Bool.and_eq_true] at hstands
              obtain ⟨⟨⟨htop, hbegins⟩, -⟩, -⟩ := hstands
              have hquote := Scan.quote_of_isTop htop
              have hword := keyword.text_all_isNameChar
              have hbehind := StandsIn.behind_word part.reverse _ (hscan.trans hquote) hword hbegins
              have hletters := Scan.after_word hquote _ hword hbegins
              have hlength : keyword.text.length = keyword.text.length - 1 + 1 := by
                cases keyword <;> rfl
              rw [hlength, List.take_succ_cons, Scan.after_cons] at hletters
              rw [hlength, List.drop_succ_cons] at hbehind
              exact hbehind.trans (ih _ [] (by rw [hletters, hquote]; rfl) hpiece)
          · have hstep : (Scan.start.after (c :: part).reverse).quote = (scan.step c).quote := by
              rw [List.reverse_cons, Scan.after_append]
              exact Scan.quote_step hscan c
            have hrest := ih 0 (c :: part) hstep hpiece
            rwa [List.reverse_cons, List.append_assoc] at hrest

theorem Keyword.standsIn_of_mem_split {keyword : Keyword} {text piece : List Char}
    (hpiece : piece ∈ keyword.split text) : StandsIn text piece :=
  standsIn_of_mem_splitFrom 0 [] rfl hpiece

theorem standsIn_of_mem_splitCommasFrom {scan : Scan} (part : List Char) {text piece : List Char}
    (hscan : (Scan.start.after part.reverse).quote = scan.quote)
    (hpiece : piece ∈ splitCommasFrom scan part text) :
    StandsIn (part.reverse ++ text) piece := by
  induction text generalizing scan part with
  | nil =>
      rw [splitCommasFrom, List.mem_singleton] at hpiece
      rw [hpiece]
      exact .before _ _
  | cons c rest ih =>
      rw [splitCommasFrom] at hpiece
      have hstep : (Scan.start.after (part.reverse ++ [c])).quote = (scan.step c).quote := by
        rw [Scan.after_append]
        exact Scan.quote_step hscan c
      split_ifs at hpiece with hcut
      · rcases List.mem_cons.mp hpiece with rfl | hpiece
        · exact .before _ _
        · simp only [Bool.and_eq_true, decide_eq_true_eq] at hcut
          obtain ⟨rfl, htop⟩ := hcut
          have hquote := Scan.quote_of_isTop htop
          have hcomma : (scan.step ',').quote = none := by
            rw [← Scan.after_nil (scan.step ','), ← Scan.after_cons,
              Scan.after_of_quote hquote [','] (by decide), hquote]
          have hbehind := StandsIn.behind _ rest (hstep.trans hcomma)
          rw [List.append_assoc] at hbehind
          exact hbehind.trans (ih [] hcomma.symm hpiece)
      · have hrest := ih (c :: part) (by rw [List.reverse_cons, hstep]) hpiece
        rwa [List.reverse_cons, List.append_assoc] at hrest

theorem standsIn_of_mem_splitCommas {text piece : List Char} (hpiece : piece ∈ splitCommas text) :
    StandsIn text piece :=
  standsIn_of_mem_splitCommasFrom [] rfl hpiece

theorem standsIn_of_cutSymbolFrom {symbol text left right : List Char} (front : List Char)
    {scan : Scan}
    (hsymbol : IsSymbol symbol)
    (hscan : (Scan.start.after front.reverse).quote = scan.quote)
    (hcut : cutSymbolFrom symbol scan front text = some (left, right)) :
    StandsIn (front.reverse ++ text) left ∧ StandsIn (front.reverse ++ text) right := by
  induction text generalizing scan front with
  | nil => cases hcut
  | cons c rest ih =>
      rw [cutSymbolFrom] at hcut
      split_ifs at hcut with hstands
      · cases hcut
        refine ⟨.before _ _, ?_⟩
        simp only [symbolStands, Bool.and_eq_true] at hstands
        obtain ⟨htop, hbegins, -⟩ := hstands
        have hquote := hscan.trans (Scan.quote_of_isTop htop)
        have hplain : symbol.all isPlain = true := by
          have hchars := hsymbol.chars
          rw [List.all_eq_true] at hchars ⊢
          exact fun c hc => (not_of_isComparisonChar (hchars c hc)).2.2
        obtain ⟨right, hright⟩ := List.isPrefixOf_iff_prefix.mp hbegins
        rw [← hright, List.drop_left, ← List.append_assoc]
        apply StandsIn.behind
        rw [Scan.after_append, Scan.after_of_quote hquote _ hplain, hquote]
      · have hstep : (Scan.start.after (c :: front).reverse).quote = (scan.step c).quote := by
          rw [List.reverse_cons, Scan.after_append]
          exact Scan.quote_step hscan c
        have hrest := ih (c :: front) hstep hcut
        rwa [List.reverse_cons, List.append_assoc] at hrest

theorem standsIn_of_comparison? {text left right : List Char} {operator : String}
    (hcut : comparison? text = some (operator, left, right)) :
    StandsIn text left ∧ StandsIn text right := by
  obtain ⟨⟨symbol, name⟩, hmem, hfound⟩ := List.exists_of_findSome?_eq_some hcut
  obtain ⟨⟨front, back⟩, hsides, heq⟩ := Option.map_eq_some_iff.mp hfound
  cases heq
  exact standsIn_of_cutSymbolFrom [] (isSymbol_of_mem hmem) rfl hsides

theorem standsIn_takeNots (bound : Nat) (text : List Char) :
    StandsIn text (takeNots bound text).2 := by
  induction bound generalizing text with
  | zero => exact .strip text
  | succ bound ih =>
      simp only [takeNots]
      split_ifs with hnot
      · have hbehind := StandsIn.behind_word [] ['N', 'O', 'T'] rfl (by decide)
          (beginsWith_of_beginsNot hnot).1
        exact (StandsIn.strip text).trans (hbehind.trans (ih _))
      · exact .strip text

theorem standsIn_of_mem_argumentsOf {text argument : List Char}
    (hargument : argument ∈ argumentsOf text) : StandsIn text argument := by
  unfold argumentsOf at hargument
  split_ifs at hargument
  · cases hargument
  · exact (StandsIn.strip text).trans (standsIn_of_mem_splitCommas hargument)

theorem standsIn_of_mem_nestedIn {operand inner : List Char} (hinner : inner ∈ nestedIn operand) :
    StandsIn operand inner := by
  unfold nestedIn at hinner
  split_ifs at hinner with hgroup
  · rw [Bool.and_eq_true, decide_eq_true_eq] at hgroup
    rw [List.mem_singleton] at hinner
    rw [hinner]
    exact (StandsIn.content hgroup.1).trans (.strip _)
  · split at hinner
    · rename_i name arguments hcall
      obtain ⟨rest, rfl, hname, hparen, -, rfl⟩ := exists_of_call? hcall
      obtain ⟨argument, hargument, rfl⟩ := List.mem_map.mp hinner
      have hrest := StandsIn.behind_plain name rest (isPlain_of_isCallName hname)
      have hinside := hrest.trans (StandsIn.content hparen)
      exact hinside.trans ((standsIn_of_mem_argumentsOf hargument).trans (.strip _))
    · cases hinner

/-! ## Where operands stand -/

namespace Operands

def AllStand (list : List Char → List (List Char)) : Prop :=
  ∀ text, ∀ operand ∈ list text, StandsIn text operand

variable {nested : List Char → List (List Char)}

theorem allStand_ofOperand (hnested : AllStand nested) : AllStand (ofOperand nested) := by
  intro text operand hoperand
  rcases List.mem_cons.mp hoperand with rfl | hoperand
  · exact .strip text
  · obtain ⟨inner, hinner, hmem⟩ := List.mem_flatMap.mp hoperand
    exact (StandsIn.strip text).trans
      ((standsIn_of_mem_nestedIn hinner).trans (hnested inner operand hmem))

theorem allStand_ofComparison (hnested : AllStand nested) : AllStand (ofComparison nested) := by
  intro text operand hoperand
  unfold ofComparison at hoperand
  split at hoperand
  · rename_i hcut
    obtain ⟨hleft, hright⟩ := standsIn_of_comparison? hcut
    rcases List.mem_append.mp hoperand with hmem | hmem
    · exact hleft.trans (allStand_ofOperand hnested _ _ hmem)
    · exact hright.trans (allStand_ofOperand hnested _ _ hmem)
  · exact allStand_ofOperand hnested _ _ hoperand

theorem allStand_ofNegation (hnested : AllStand nested) : AllStand (ofNegation nested) :=
  fun text operand hoperand =>
    (standsIn_takeNots _ text).trans (allStand_ofComparison hnested _ operand hoperand)

theorem allStand_ofJoined {part : List Char → List (List Char)} (hpart : AllStand part)
    (keyword : Keyword) : AllStand (ofJoined keyword part) := by
  intro text operand hoperand
  unfold ofJoined at hoperand
  split at hoperand
  · exact hpart text operand hoperand
  · obtain ⟨piece, hpiece, hmem⟩ := List.mem_flatMap.mp hoperand
    exact (Keyword.standsIn_of_mem_split hpiece).trans
      ((StandsIn.strip piece).trans (hpart _ operand hmem))

theorem allStand_within (bound : Nat) : AllStand (within bound) := by
  induction bound with
  | zero => exact fun text operand hoperand => absurd hoperand List.not_mem_nil
  | succ bound ih => exact allStand_ofJoined (allStand_ofJoined (allStand_ofNegation ih) _) _

end Operands

theorem standsIn_of_mem_operands {text operand : List Char} (hoperand : operand ∈ operands text) :
    StandsIn text operand :=
  (StandsIn.strip text).trans (Operands.allStand_within _ _ operand hoperand)

end Condition
end Rulebook
