import Rulebook.Proofs.Condition.Composition
import Rulebook.Proofs.Condition.Leaves
import Rulebook.Proofs.Condition.Operands
import Rulebook.Proofs.Term.Contents

/-!
# Where text constants end

A scan closes a quotation at the next quote of its kind, but an operand is read as one text constant
whenever it begins and ends with the same quote.  The two agree on an operand unless that quote
stands inside of it, too.  Every other operand that is accepted has quotes in parentheses only, where
they belong to operands of their own.  So all text constants of a condition are literals as the scan
finds them, and all its operands are single literals or free of them, just if no operand between two
quotes has the same quote inside.
-/

namespace Rulebook
namespace Condition

open Text

def quotedBy (quote : Char) (content : List Char) : List Char :=
  quote :: content ++ [quote]

/-- The content of a literal of a text.  It stands outside of other literals, and it ends at the
first quote that is like the one in front of it. -/
def IsLiteralIn (text content : List Char) : Prop :=
  ∃ quote, isQuote quote = true ∧ quote ∉ content ∧ StandsIn text (quotedBy quote content)

/-- A text closes all its quotes, and outside of parentheses it has none. -/
structure QuotesInside (text : List Char) : Prop where
  closed : (Scan.start.after text).quote = none
  inside : ∀ front quote back, text = front ++ quote :: back → isQuote quote = true →
    (Scan.start.after front).quote = none → 0 < (Scan.start.after front).depth

/-- A text closes all its quotes, and if one opens outside of parentheses then the text is a literal
and nothing else. -/
structure IsSingle (text : List Char) : Prop where
  closed : (Scan.start.after text).quote = none
  alone : ∀ front quote back, text = front ++ quote :: back → isQuote quote = true →
    (Scan.start.after front).quote = none → (Scan.start.after front).depth ≤ 0 →
    ∃ content, quote ∉ content ∧ text = quotedBy quote content

theorem quotedBy_inj {quote : Char} {content other : List Char}
    (heq : quotedBy quote content = quotedBy quote other) : content = other := by
  simpa [quotedBy] using heq

theorem Scan.step_start_of_isQuote {quote : Char} (hquote : isQuote quote = true) :
    Scan.start.step quote = ⟨some quote, 0⟩ := by
  simp [Scan.step, Scan.start, hquote]

namespace QuotesInside

variable {text : List Char}

theorem isSingle (htext : QuotesInside text) : IsSingle text where
  closed := htext.closed
  alone := fun front quote back hsplit hquote hscan hdepth =>
    absurd (htext.inside front quote back hsplit hquote hscan) (Int.not_lt.mpr hdepth)

theorem of_isPlain (htext : text.all isPlain = true) : QuotesInside text where
  closed := by
    rw [Scan.after_of_quote rfl _ htext]
    rfl
  inside := by
    rintro front quote back rfl hquote
    rw [List.all_append, Bool.and_eq_true, List.all_cons, Bool.and_eq_true] at htext
    rw [isPlain, hquote] at htext
    cases htext.2.1

theorem append {front : List Char} (hfront : front.all isPlain = true)
    (htext : QuotesInside text) : QuotesInside (front ++ text) := by
  have hscan : Scan.start.after front = Scan.start := Scan.after_of_quote rfl _ hfront
  constructor
  · rw [Scan.after_append, hscan]
    exact htext.closed
  · intro before quote back hsplit hquote hbefore
    rcases List.append_eq_append_iff.mp hsplit with ⟨rest, rfl, hrest⟩ | ⟨rest, hrest, hback⟩
    · rw [Scan.after_append, hscan] at hbefore ⊢
      exact htext.inside rest quote back hrest hquote hbefore
    · cases rest with
      | nil =>
          rw [List.append_nil] at hrest
          rw [← hrest, hscan] at hbefore ⊢
          exact htext.inside [] quote back hback.symm hquote hbefore
      | cons c rest =>
          obtain rfl : quote = c := (List.cons.inj hback).1
          rw [hrest, List.all_append, Bool.and_eq_true, List.all_cons, isPlain, hquote] at hfront
          cases hfront.2

end QuotesInside

/-! ## Parentheses -/

theorem Scan.depth_step_pos {scan : Scan} {c : Char} (hdepth : 0 < scan.depth)
    (hopen : (c = ')' && scan.isTop c) = false) : 0 < (scan.step c).depth := by
  obtain ⟨quote, depth⟩ := scan
  cases quote with
  | some q =>
      simp only [Scan.step]
      split_ifs <;> exact hdepth
  | none =>
      by_cases hclose : c = ')'
      · subst hclose
        have hlevel : depth - 1 ≠ 0 := by simpa [Scan.isTop, isQuote] using hopen
        simp only [Scan.step, isQuote] at hdepth ⊢
        simp
        omega
      · simp only [Scan.step, hclose, if_false] at hdepth ⊢
        split_ifs <;> simp <;> omega

theorem inside_of_wrapsFrom {scan : Scan} {text : List Char} (hdepth : 0 < scan.depth)
    (hwraps : wrapsFrom scan text = true) :
    (scan.after text).quote = none ∧
      ∀ front c back, text = front ++ c :: back → 0 < (scan.after front).depth := by
  fun_induction wrapsFrom scan text with
  | case1 => cases hwraps
  | case2 scan c =>
      rw [Bool.and_eq_true, decide_eq_true_eq] at hwraps
      obtain ⟨rfl, htop⟩ := hwraps
      refine ⟨?_, fun front c back hsplit => ?_⟩
      · rw [Scan.after_cons, Scan.after_nil, Scan.step, Scan.quote_of_isTop htop]
        rfl
      · obtain rfl : front = [] := by
          cases front with
          | nil => rfl
          | cons d front => simp at hsplit
        exact hdepth
  | case3 scan c rest hne ih =>
      -- This is not the last character, so if it closes a parenthesis then not the first one.
      rw [Bool.and_eq_true, Bool.not_eq_true'] at hwraps
      obtain ⟨hclosed, hinside⟩ := ih (Scan.depth_step_pos hdepth hwraps.1) hwraps.2
      refine ⟨hclosed, fun front d back hsplit => ?_⟩
      cases front with
      | nil => exact hdepth
      | cons e front =>
          obtain ⟨rfl, hrest⟩ := List.cons.inj hsplit
          exact hinside front d back hrest

theorem QuotesInside.of_wraps {text : List Char} (hparen : text.head? = some '(')
    (hwraps : wraps text = true) : QuotesInside text := by
  obtain ⟨rest, rfl⟩ := List.head?_eq_some_iff.mp hparen
  cases rest with
  | nil => cases hwraps
  | cons d rest =>
      rw [wraps, wrapsFrom, Bool.and_eq_true] at hwraps
      · obtain ⟨hclosed, hinside⟩ :=
          inside_of_wrapsFrom (by decide : 0 < (Scan.start.step '(').depth) hwraps.2
        refine ⟨hclosed, fun front quote back hsplit hquote _ => ?_⟩
        cases front with
        | nil =>
            obtain ⟨rfl, -⟩ := List.cons.inj hsplit
            cases hquote
        | cons c front =>
            obtain ⟨rfl, hrest⟩ := List.cons.inj hsplit
            exact hinside front quote back hrest
      · exact fun hnil => List.cons_ne_nil d rest hnil

/-! ## Operands that are accepted -/

theorem IsSingle.quoted {quote : Char} {content : List Char} (hquote : isQuote quote = true)
    (hcontent : quote ∉ content) : IsSingle (quotedBy quote content) where
  closed := by
    rw [quotedBy, (Balanced.quoted hquote hcontent).closed]
    rfl
  alone := by
    intro front other back hsplit _ hscan _
    cases front with
    | nil =>
        obtain ⟨rfl, -⟩ := List.cons.inj hsplit
        exact ⟨content, hcontent, rfl⟩
    | cons c front =>
        -- Behind the quote that opens and before the one that closes nothing else can open.
        obtain ⟨rfl, hrest⟩ := List.cons.inj hsplit
        have hfront : quote ∉ front := by
          rcases List.append_eq_append_iff.mp hrest with ⟨rest, rfl, hlast⟩ | ⟨rest, hcut, -⟩
          · have hnil : rest = [] := by
              cases rest with
              | nil => rfl
              | cons d rest => simp at hlast
            rwa [hnil, List.append_nil]
          · rw [hcut] at hcontent
            exact fun hmem => hcontent (List.mem_append_left _ hmem)
        rw [Scan.after_cons, Scan.step_start_of_isQuote hquote, Scan.after_content hfront] at hscan
        cases hscan

/-- An operand that can be read: it is between two quotes, or it has quotes in parentheses only. -/
def IsLegible (operand : List Char) : Prop :=
  (∃ quote content, isQuote quote = true ∧ operand = quotedBy quote content) ∨
    QuotesInside operand

/-- An operand that can be read is single just if it has no quote inside that is like the two at its
ends. -/
theorem IsLegible.isSingle_iff {operand : List Char} (hoperand : IsLegible operand) :
    IsSingle operand ↔
      ∀ quote content, isQuote quote = true → operand = quotedBy quote content →
        quote ∉ content := by
  constructor
  · rintro hsingle quote content hquote rfl
    obtain ⟨other, hother, heq⟩ :=
      hsingle.alone [] quote (content ++ [quote]) rfl hquote rfl (Int.le_refl 0)
    rwa [quotedBy_inj heq]
  · intro hquoted
    rcases hoperand with ⟨quote, content, hquote, rfl⟩ | hinside
    · exact .quoted hquote (hquoted quote content hquote rfl)
    · exact hinside.isSingle

theorem exists_of_quotedContent? {text content : List Char}
    (hcontent : quotedContent? text = some content) :
    ∃ quote, isQuote quote = true ∧ text = quotedBy quote content := by
  unfold quotedContent? at hcontent
  split at hcontent
  · rename_i quote rest
    split_ifs at hcontent with hquoted
    cases hcontent
    simp only [Bool.and_eq_true, decide_eq_true_eq] at hquoted
    refine ⟨quote, hquoted.1.1, ?_⟩
    rw [quotedBy, List.cons_append, List.dropLast_append_getLast? quote hquoted.2]
  · cases hcontent

theorem any_isForeign_of_call? {text name arguments : List Char}
    (hcall : call? text = some (name, arguments)) : text.any isForeign = true := by
  obtain ⟨rest, rfl, -, hparen, -⟩ := exists_of_call? hcall
  obtain ⟨rest, rfl⟩ := List.head?_eq_some_iff.mp hparen
  rw [List.any_append, List.any_cons, show isForeign '(' = true by decide, Bool.true_or,
    Bool.or_true]

theorem nestedIn_eq_nil {text : List Char} (hparen : text.head? ≠ some '(')
    (hcall : call? text = none) : nestedIn text = [] := by
  simp [nestedIn, hparen, hcall]

theorem nestedIn_of_not_isForeign {text : List Char} (htext : text.any isForeign = false) :
    nestedIn text = [] := by
  apply nestedIn_eq_nil
  · intro hparen
    obtain ⟨rest, rfl⟩ := List.head?_eq_some_iff.mp hparen
    cases htext
  · rw [Option.eq_none_iff_forall_ne_some]
    rintro ⟨name, arguments⟩ hcall
    rw [any_isForeign_of_call? hcall] at htext
    cases htext

theorem exists_cons_of_call? {text name arguments : List Char}
    (hcall : call? text = some (name, arguments)) :
    ∃ c rest, text = c :: rest ∧ isPlain c = true := by
  obtain ⟨rest, rfl, hname, -⟩ := exists_of_call? hcall
  cases name with
  | nil => cases hname
  | cons c name =>
      have hplain := isPlain_of_isCallName hname
      rw [List.all_cons, Bool.and_eq_true] at hplain
      exact ⟨c, name ++ rest, rfl, hplain.1⟩

theorem nestedIn_quotedBy {quote : Char} (hquote : isQuote quote = true) (content : List Char) :
    nestedIn (quotedBy quote content) = [] := by
  apply nestedIn_eq_nil
  · intro hparen
    obtain rfl : quote = '(' := Option.some.inj hparen
    cases hquote
  · rw [Option.eq_none_iff_forall_ne_some]
    rintro ⟨name, arguments⟩ hcall
    obtain ⟨c, rest, hsplit, hplain⟩ := exists_cons_of_call? hcall
    obtain ⟨rfl, -⟩ := List.cons.inj hsplit
    rw [isPlain, hquote] at hplain
    cases hplain

theorem nestedIn_of_call? {text name arguments : List Char}
    (hcall : call? text = some (name, arguments)) :
    nestedIn text = (argumentsOf arguments).map strip := by
  have hparen : text.head? ≠ some '(' := by
    obtain ⟨c, rest, rfl, hplain⟩ := exists_cons_of_call? hcall
    intro hparen
    obtain rfl : c = '(' := Option.some.inj hparen
    cases hplain
  simp [nestedIn, hparen, hcall]

/-- A term that is no text, nor made of any. -/
def HasNoText (term : Term) : Prop :=
  term.Throughout fun part => ∀ content : String, part ≠ .str content

theorem hasNoText_of_contents {term : Term} (hterm : ∀ content : String, term ≠ .str content)
    (hcontents : term.contents = []) : HasNoText term := by
  refine .intro hterm fun part hpart => ?_
  rw [hcontents] at hpart
  exact absurd hpart List.not_mem_nil

theorem hasNoText_number? {text : List Char} {number : Term}
    (hnumber : number? text = some number) : HasNoText number := by
  rw [number?] at hnumber
  split_ifs at hnumber
  · obtain ⟨x, -, rfl⟩ := Option.map_eq_some_iff.mp hnumber
    exact hasNoText_of_contents (by simp) rfl
  · obtain ⟨n, -, rfl⟩ := Option.map_eq_some_iff.mp hnumber
    exact hasNoText_of_contents (by simp) rfl

theorem hasNoText_constant? {text : List Char} {constant : Term}
    (hconstant : constant? text = some constant) : HasNoText constant := by
  simp only [constant?] at hconstant
  split_ifs at hconstant <;> cases hconstant <;>
    exact hasNoText_of_contents (by simp) rfl

/-! ## Readers -/

/-- A term that was read from operands.  All of these could be read, and every text constant is the
content of one. -/
structure Traced (operands : List (List Char)) (term : Term) : Prop where
  legible : ∀ operand ∈ operands, IsLegible operand
  constants : term.Throughout fun part => ∀ content : String, part = .str content →
    ∃ quote, isQuote quote = true ∧ quotedBy quote content.toList ∈ operands

namespace Traced

/-- A call is read from what its operands are read from. -/
theorem call {α : Type} {list : α → List (List Char)} (items : List α) {terms : List Term}
    (operator : String)
    (hitems : List.Forall₂ (fun item term => Traced (list item) term) items terms) :
    Traced (items.flatMap list) (.call operator terms) := by
  constructor
  · intro operand hoperand
    obtain ⟨item, hitem, hmem⟩ := List.mem_flatMap.mp hoperand
    obtain ⟨term, -, hterm⟩ := exists_of_mem_right hitems.flip hitem
    exact hterm.legible operand hmem
  · refine .intro nofun fun part hpart => ?_
    rcases List.mem_cons.mp hpart with rfl | hpart
    · exact .intro nofun nofun
    · obtain ⟨item, hitem, hterm⟩ := exists_of_mem_right hitems hpart
      refine hterm.constants.mono fun other hother content hcontent => ?_
      obtain ⟨quote, hquote, hmem⟩ := hother content hcontent
      exact ⟨quote, hquote, List.mem_flatMap.mpr ⟨item, hitem, hmem⟩⟩

theorem cons {operand : List Char} {operands : List (List Char)} {term : Term}
    (hoperand : IsLegible operand) (hterm : Traced operands term) :
    Traced (operand :: operands) term where
  legible := List.forall_mem_cons.mpr ⟨hoperand, hterm.legible⟩
  constants := hterm.constants.mono fun _ hpart content hcontent => by
    obtain ⟨quote, hquote, hmem⟩ := hpart content hcontent
    exact ⟨quote, hquote, List.mem_cons_of_mem _ hmem⟩

end Traced

/-- What a reader gives was read from the operands that are listed. -/
def Traces (list : List Char → List (List Char)) (reader : List Char → Except Malformed Term) :
    Prop :=
  ∀ text term, reader text = .ok term → Traced (list text) term

section Readers

variable {list : List Char → List (List Char)} {nested : List Char → Except Malformed Term}

theorem Traces.mapM (hnested : Traces list nested) {parts : List (List Char)} {terms : List Term}
    (hterms : (parts.mapM fun part => nested (strip part)) = .ok terms) :
    List.Forall₂ (fun part term => Traced (list (strip part)) term) parts terms :=
  (forall₂_of_mapM hterms).imp fun _ _ hterm => hnested _ _ hterm

theorem Traced.literal {quote : Char} (hquote : isQuote quote = true) (content : List Char) :
    Traced (quotedBy quote content :: (nestedIn (quotedBy quote content)).flatMap list)
      (.str (String.ofList content)) := by
  rw [nestedIn_quotedBy hquote, List.flatMap_nil]
  constructor
  · exact List.forall_mem_singleton.mpr (.inl ⟨quote, content, hquote, rfl⟩)
  · refine .intro (fun other hother => ?_) nofun
    cases hother
    exact ⟨quote, hquote, by rw [String.toList_ofList]; exact List.mem_singleton_self _⟩

/-- Numbers, constants and names are read from themselves. -/
theorem Traced.bare {text : List Char} {term : Term} (htext : text.any isForeign = false)
    (hterm : HasNoText term) : Traced (text :: (nestedIn text).flatMap list) term := by
  have hplain : text.all isPlain = true := by
    rw [List.any_eq_false] at htext
    rw [List.all_eq_true]
    intro c hc
    have hforeign := htext c hc
    simp only [isForeign, Bool.or_eq_true, Bool.not_eq_true', not_or, Bool.not_eq_false] at hforeign
    exact hforeign.2
  refine .cons (.inr (.of_isPlain hplain)) ?_
  rw [nestedIn_of_not_isForeign htext]
  constructor
  · exact fun _ hoperand => absurd hoperand List.not_mem_nil
  · exact hterm.mono fun _ hpart content hcontent => absurd hcontent (hpart content)

theorem Traced.of_operandRead (hnested : Traces list nested) {operand : List Char} {term : Term}
    (hterm : OperandRead nested operand term) :
    Traced (operand :: (nestedIn operand).flatMap list) term := by
  cases hterm with
  | group hparen hwraps hterm =>
      have hlist : nestedIn operand = [strip (operand.drop 1).dropLast] := by
        simp [nestedIn, hparen, hwraps]
      rw [hlist, List.flatMap_singleton]
      exact .cons (.inr (.of_wraps hparen hwraps)) (hnested _ _ hterm)
  | text hcontent =>
      obtain ⟨quote, hquote, rfl⟩ := exists_of_quotedContent? hcontent
      exact .literal hquote _
  | number hnumber =>
      refine .bare (Bool.eq_false_iff.mpr fun hforeign => ?_) (hasNoText_number? hnumber)
      rw [number?_eq_none hforeign] at hnumber
      cases hnumber
  | constant hconstant =>
      refine .bare (Bool.eq_false_iff.mpr fun hforeign => ?_) (hasNoText_constant? hconstant)
      rw [constant?_eq_none hforeign] at hconstant
      cases hconstant
  | call hcall hoperands =>
      obtain ⟨rest, hsplit, hname, hparen, hwraps, -⟩ := exists_of_call? hcall
      have hinside := (QuotesInside.of_wraps hparen hwraps).append (isPlain_of_isCallName hname)
      rw [← hsplit] at hinside
      refine .cons (.inr hinside) ?_
      rw [nestedIn_of_call? hcall, List.flatMap_map]
      exact .call _ _ (hnested.mapM hoperands)
  | name hname =>
      refine .bare (Bool.eq_false_iff.mpr fun hforeign => ?_) (.intro nofun nofun)
      rw [isVariableName_eq_false hforeign] at hname
      cases hname

theorem Traced.of_comparisonRead (hnested : Traces list nested) {text : List Char} {term : Term}
    (hterm : ComparisonRead nested text term) : Traced (Operands.ofComparison list text) term := by
  unfold Operands.ofComparison
  cases hterm with
  | alone hcut hterm =>
      rw [hcut]
      exact .of_operandRead hnested hterm
  | @compared operator left right a b hcut ha hb =>
      have hleft : Traced (Operands.ofOperand list left) a := .of_operandRead hnested ha
      have hright : Traced (Operands.ofOperand list right) b := .of_operandRead hnested hb
      have hsides := Traced.call [left, right] operator (.cons hleft (.cons hright .nil))
      rw [hcut]
      rwa [List.flatMap_cons, List.flatMap_singleton] at hsides

theorem Traced.negated {operands : List (List Char)} {term : Term} (hterm : Traced operands term)
    (count : Nat) : Traced operands (negated count term) := by
  induction count with
  | zero => exact hterm
  | succ count ih =>
      have hcall : Traced ([operands].flatMap id) (Condition.negated (count + 1) term) :=
        .call [operands] "not" (.cons ih .nil)
      rwa [List.flatMap_singleton] at hcall

theorem traces_readNegation (hnested : Traces list nested) :
    Traces (Operands.ofNegation list) (readNegation nested) := by
  intro text term hterm
  obtain ⟨core, rfl, hcore⟩ := exists_of_readNegation hterm
  exact (Traced.of_comparisonRead hnested hcore).negated _

theorem traces_readJoined {part : List Char → Except Malformed Term} (hpart : Traces list part)
    (keyword : Keyword) (operator : String) :
    Traces (Operands.ofJoined keyword list) (readJoined keyword operator part) := by
  intro text term hterm
  unfold Operands.ofJoined
  cases joinedRead_of_readJoined hterm with
  | single hsplit hterm =>
      rw [hsplit]
      exact hpart _ _ hterm
  | several hsplit hoperands =>
      split
      · rename_i piece hpiece
        exact absurd hpiece (hsplit piece)
      · exact .call _ operator (hpart.mapM hoperands)

theorem traces_readWithin (bound : Nat) : Traces (Operands.within bound) (readWithin bound) := by
  induction bound with
  | zero => exact fun text term hterm => nomatch hterm
  | succ bound ih => exact traces_readJoined (traces_readJoined (traces_readNegation ih) _ _) _ _

theorem traces_read : Traces operands read := by
  intro text term hterm
  simp only [read] at hterm
  split_ifs at hterm
  exact traces_readWithin _ _ _ hterm

end Readers

/-! ## Conditions -/

/-- Every text constant of a condition that is accepted stands in it between two quotes, outside of
other literals.  That these are literals as the scan finds them, and that no operand is made of
several literals or leaves a quote open, holds just if no operand between two quotes has the same
quote inside. -/
theorem constants_of_reading? {text : String} {tree : Term} (htree : reading? text = some tree) :
    (tree.Throughout fun part => ∀ content : String, part = .str content →
      ∃ quote, isQuote quote = true ∧ StandsIn text.toList (quotedBy quote content.toList)) ∧
    (((tree.Throughout fun part => ∀ content : String, part = .str content →
          IsLiteralIn text.toList content.toList) ∧
        ∀ operand ∈ operands text.toList, IsSingle operand) ↔
      ∀ operand ∈ operands text.toList, ∀ quote content, isQuote quote = true →
        operand = quotedBy quote content → quote ∉ content) := by
  rw [reading?_of_toList rfl] at htree
  have htraced := traces_read _ _ (eq_ok_of_toOption htree)
  have hsingle : (∀ operand ∈ operands text.toList, IsSingle operand) ↔
      ∀ operand ∈ operands text.toList, ∀ quote content, isQuote quote = true →
        operand = quotedBy quote content → quote ∉ content :=
    forall₂_congr fun operand hoperand => (htraced.legible operand hoperand).isSingle_iff
  refine ⟨?_, fun hclean => hsingle.mp hclean.2, fun hquoted => ⟨?_, hsingle.mpr hquoted⟩⟩
  · refine htraced.constants.mono fun part hpart content hcontent => ?_
    obtain ⟨quote, hquote, hmem⟩ := hpart content hcontent
    exact ⟨quote, hquote, standsIn_of_mem_operands hmem⟩
  · refine htraced.constants.mono fun part hpart content hcontent => ?_
    obtain ⟨quote, hquote, hmem⟩ := hpart content hcontent
    exact ⟨quote, hquote, hquoted _ hmem quote _ hquote rfl, standsIn_of_mem_operands hmem⟩

/-- A quote of the other kind inside of a literal is part of it. -/
theorem constants_of_reading?_apostrophe :
    reading? "name == \"it's\" AND f('a', b)" =
        some (.call "and" [.call "=" [.variable "name", .str "it's"],
          .call "f" [.str "a", .variable "b"]]) ∧
      IsLiteralIn "name == \"it's\" AND f('a', b)".toList "it's".toList ∧
      ∀ operand ∈ operands "name == \"it's\" AND f('a', b)".toList, IsSingle operand := by
  have hread : reading? "name == \"it's\" AND f('a', b)" =
      some (.call "and" [.call "=" [.variable "name", .str "it's"],
        .call "f" [.str "a", .variable "b"]]) := rfl
  have hoperands : ∀ operand ∈ operands "name == \"it's\" AND f('a', b)".toList,
      ∀ quote ∈ operand.head?, isQuote quote = true → quote ∉ operand.tail.dropLast := by
    have hlist : operands "name == \"it's\" AND f('a', b)".toList =
        ["name", "\"it's\"", "f('a', b)", "'a'", "b"].map String.toList := by
      decide +kernel
    rw [hlist]
    simp [isQuote]
  obtain ⟨hliterals, hsingle⟩ := (constants_of_reading? hread).2.mpr (by
    rintro operand hoperand quote content hquote rfl
    simpa [quotedBy] using hoperands _ hoperand quote rfl hquote)
  refine ⟨hread, ?_, hsingle⟩
  have hcomparison := hliterals.of_mem (List.mem_cons_of_mem _ List.mem_cons_self)
  have hconstant := hcomparison.of_mem (List.mem_cons_of_mem _
    (List.mem_cons_of_mem _ List.mem_cons_self))
  exact hconstant.self _ rfl

/-- Two literals with a blank between them are read as one text constant, which is no literal. -/
theorem not_isLiteralIn_two_literals :
    ¬ ∀ text tree, reading? text = some tree →
      tree.Throughout fun part => ∀ content : String, part = .str content →
        IsLiteralIn text.toList content.toList := by
  intro hliterals
  have hread : reading? "region == 'UK' 'HK'" =
      some (.call "=" [.variable "region", .str "UK' 'HK"]) := rfl
  have hconstant := (hliterals _ _ hread).of_mem (List.mem_cons_of_mem _
    (List.mem_cons_of_mem _ List.mem_cons_self))
  obtain ⟨quote, hquote, hfree, front, back, hsplit, -⟩ := hconstant.self _ rfl
  have hmem : quote ∈ "region == 'UK' 'HK'".toList := by
    rw [hsplit]
    simp [quotedBy]
  rw [isQuote, Bool.or_eq_true, decide_eq_true_eq, decide_eq_true_eq] at hquote
  rcases hquote with rfl | rfl
  · exact hfree (by decide +kernel)
  · exact absurd hmem (by decide +kernel)

end Condition
end Rulebook
