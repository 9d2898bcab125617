import Rulebook.Proofs.Condition.Composition
import Rulebook.Proofs.Condition.Leaves
import Rulebook.Proofs.Term.Contents
import Rulebook.Proofs.Term.Equality

/-!
# Which blanks separate does not matter

Two conditions that differ only in blanks, outside of quotes and not right behind `NOT`, are accepted
or rejected together.  What they are read as is the same, with one exception: an operand that begins
and ends with the same quote is one text constant, whatever stands between, so a blank that stands
between two quoted texts is part of that constant.
-/

namespace Rulebook
namespace Condition

open Text

/-! ## Operands without blanks -/

/-- What fails on texts with blanks makes the same of texts that differ in blanks. -/
theorem Respaced.congr {scan : Scan} {before text other : List Char} {f : List Char → α}
    {failed : α} (hf : ∀ text, text.any isForeign = true → f text = failed)
    (htexts : Respaced scan before text other) : f text = f other := by
  rcases htexts.eq_or_any_isBlank with rfl | ⟨htext, hother⟩
  · rfl
  · rw [hf text (any_isForeign_of_isBlank htext), hf other (any_isForeign_of_isBlank hother)]

/-! ## Quoted texts and calls -/

/-- What stands in parentheses may be looked at on its own. -/
theorem Respaced.content {scan : Scan} {before text other : List Char}
    (htexts : Respaced scan before text other) (hquote : scan.quote = none)
    (hparen : text.head? = some '(') :
    Alike (text.drop 1).dropLast (other.drop 1).dropLast := by
  have hinside : Alike (text.drop 1) (other.drop 1) := by
    obtain ⟨rest, rfl⟩ := List.head?_eq_some_iff.mp hparen
    apply (htexts.drop 1).restart
    · simp [Scan.step, hquote, Scan.start, isQuote]
    · exact .inl rfl
  have hlength := hinside.length_eq
  have hsplit : ∀ text : List Char, text = text.dropLast ++ text.drop (text.length - 1) := by
    intro text
    rw [List.dropLast_eq_take, List.take_append_drop]
  rw [hsplit (text.drop 1), hsplit (other.drop 1)] at hinside
  apply hinside.left
  rw [List.length_dropLast, List.length_dropLast, hlength]

theorem Respaced.length_takeWhile_eq {scan : Scan} {before text other : List Char} {x : Char}
    (hx : isBlank x = false) (htexts : Respaced scan before text other) :
    (text.takeWhile (· ≠ x)).length = (other.takeWhile (· ≠ x)).length := by
  induction text generalizing scan before other with
  | nil =>
      obtain rfl : other = [] := List.length_eq_zero_iff.mp htexts.length_eq.symm
      rfl
  | cons c text ih =>
      obtain ⟨d, other, rfl⟩ := List.exists_cons_of_length_eq_add_one htexts.length_eq.symm
      have hhead : c ≠ x ↔ d ≠ x := not_congr (htexts.head_eq_iff hx)
      have hrest := ih htexts.tail
      by_cases hc : c ≠ x
      · simpa [hc, hhead.mp hc] using hrest
      · simp [hc, mt hhead.mpr hc]

theorem Respaced.getLast?_eq_iff {scan : Scan} {before text other : List Char} {x : Char}
    (hx : isBlank x = false) (htexts : Respaced scan before text other) :
    text.getLast? = some x ↔ other.getLast? = some x := by
  induction text generalizing scan before other with
  | nil =>
      obtain rfl : other = [] := List.length_eq_zero_iff.mp htexts.length_eq.symm
      rfl
  | cons c text ih =>
      obtain ⟨d, other, rfl⟩ := List.exists_cons_of_length_eq_add_one htexts.length_eq.symm
      have htail := htexts.tail
      rcases text with _ | ⟨e, text⟩ <;> rcases other with _ | ⟨f, other⟩
      · simpa using htexts.head_eq_iff hx
      · cases htail
      · cases htail
      · rw [List.getLast?_cons_cons, List.getLast?_cons_cons]
        exact ih htail

namespace Alike

variable {text other : List Char}

theorem quotedContent? (htexts : Alike text other) :
    Option.Rel (fun content content' => ∃ quote, isQuote quote = true ∧
        Alike (quote :: content ++ [quote]) (quote :: content' ++ [quote]))
      (quotedContent? text) (quotedContent? other) := by
  have hblank : ∀ {c : Char}, isQuote c = true → isBlank c = false := by
    intro c hc
    rw [isQuote, Bool.or_eq_true, decide_eq_true_eq, decide_eq_true_eq] at hc
    rcases hc with rfl | rfl <;> decide
  rcases text with _ | ⟨c, rest⟩ <;> rcases other with _ | ⟨d, rest'⟩
  · exact .none
  · cases htexts
  · cases htexts
  · by_cases hquote : isQuote c = true ∨ isQuote d = true
    · obtain rfl : c = d := hquote.elim
        (fun hc => ((htexts.head_eq_iff (hblank hc)).mp rfl).symm)
        (fun hd => (htexts.head_eq_iff (hblank hd)).mpr rfl)
      rw [or_self] at hquote
      have hlast := htexts.tail.getLast?_eq_iff (hblank hquote)
      unfold Condition.quotedContent?
      simp only [← hlast, ← htexts.tail.isEmpty_eq]
      split_ifs with hquoted
      · simp only [Bool.and_eq_true, decide_eq_true_eq] at hquoted
        refine .some ⟨c, hquote, ?_⟩
        rwa [List.cons_append, List.cons_append, List.dropLast_append_getLast? c hquoted.2,
          List.dropLast_append_getLast? c (hlast.mp hquoted.2)]
      · exact .none
    · rw [not_or, Bool.not_eq_true, Bool.not_eq_true] at hquote
      simp only [Condition.quotedContent?, hquote.1, hquote.2, Bool.false_and]
      exact .none

theorem call? (htexts : Alike text other) :
    Option.Rel (fun call call' => call.1 = call'.1 ∧ Alike call.2 call'.2)
      (call? text) (call? other) := by
  have hlength := htexts.length_takeWhile_eq (x := '(') (by decide)
  have hparen := List.head?_dropWhile_not (fun c : Char => decide (c ≠ '(')) text
  rw [← List.takeWhile_append_dropWhile (p := fun c : Char => decide (c ≠ '(')) (l := text),
    ← List.takeWhile_append_dropWhile (p := fun c : Char => decide (c ≠ '(')) (l := other)]
    at htexts
  have hfront := htexts.left hlength
  have hback := htexts.right hlength
  unfold Condition.call?
  dsimp only
  generalize text.takeWhile (· ≠ '(') = name, other.takeWhile (· ≠ '(') = name',
    text.dropWhile (· ≠ '(') = rest, other.dropWhile (· ≠ '(') = rest' at *
  rw [← hfront.congr (fun _ => isCallName_eq_false)]
  cases hname : isCallName name with
  | false => exact .none
  | true =>
      rw [Scan.after_of_quote rfl _ (isPlain_of_isCallName hname)] at hback
      have hword : endsWord rest = true := by
        rcases rest with _ | ⟨c, rest⟩
        · rfl
        · obtain rfl : c = '(' := by simpa using hparen
          rfl
      have hwraps : wraps rest = wraps rest' := Alike.wraps_eq (hback.restart rfl (.inr hword))
      rw [← hwraps]
      cases hwrapped : wraps rest with
      | false => exact .none
      | true =>
          refine .some ⟨?_, hback.content rfl ?_⟩
          · rcases hfront.eq_or_any_isBlank with heq | ⟨hblank, -⟩
            · exact heq
            · rw [isCallName_eq_false (any_isForeign_of_isBlank hblank)] at hname
              cases hname
          · rcases rest with _ | ⟨c, rest⟩
            · cases hwrapped
            · simpa using hparen

end Alike

/-! ## Trees -/

/-- Two expressions are the same up to the blanks in text constants that are written with quotes
inside. -/
inductive SameTree : Term → Term → Prop
  | refl (term : Term) : SameTree term term
  | quoted {quote : Char} {content content' : List Char} (hquote : isQuote quote = true)
      (hcontents : Alike (quote :: content ++ [quote]) (quote :: content' ++ [quote])) :
      SameTree (.str (String.ofList content)) (.str (String.ofList content'))
  | call (operator : String) {operands operands' : List Term}
      (hoperands : List.Forall₂ SameTree operands operands') :
      SameTree (.call operator operands) (.call operator operands')

/-- Two readings of a condition: both are rejected, or the trees are the same. -/
abbrev SameReading (first second : Except Malformed Term) : Prop :=
  Option.Rel SameTree first.toOption second.toOption

/-- A reader makes the same of texts that differ in blanks. -/
def ReadsAlike (reader : List Char → Except Malformed Term) : Prop :=
  ∀ {text other : List Char}, Alike text other → SameReading (reader text) (reader other)

section Outcomes

variable {ε α α' β β' γ γ' : Type} {related : β → γ → Prop}

theorem rel_bind {related' : β' → γ' → Prop} {first : Except ε β} {second : Except ε γ}
    {next : β → Except ε β'} {next' : γ → Except ε γ'}
    (hresults : Option.Rel related first.toOption second.toOption)
    (hnext : ∀ value value', related value value' →
      Option.Rel related' (next value).toOption (next' value').toOption) :
    Option.Rel related' (first >>= next).toOption (second >>= next').toOption := by
  rw [toOption_bind, toOption_bind]
  generalize first.toOption = x, second.toOption = y at hresults
  cases hresults with
  | none => exact .none
  | some hvalues => exact hnext _ _ hvalues

theorem rel_mapM {items : List α} {items' : List α'} {read : α → Except ε β}
    {read' : α' → Except ε γ}
    (hitems : List.Forall₂ (fun item item' =>
      Option.Rel related (read item).toOption (read' item').toOption) items items') :
    Option.Rel (List.Forall₂ related) (items.mapM read).toOption (items'.mapM read').toOption := by
  induction hitems with
  | nil => exact .some .nil
  | cons hitem _ ih =>
      rw [List.mapM_cons, List.mapM_cons]
      apply rel_bind hitem
      intro value value' hvalue
      apply rel_bind ih
      intro values values' hvalues
      exact .some (.cons hvalue hvalues)

end Outcomes

/-! ## Readers -/

section Readers

variable {nested : List Char → Except Malformed Term}

theorem ReadsAlike.mapM {reader : List Char → Except Malformed Term} (hreader : ReadsAlike reader)
    {parts parts' : List (List Char)} (hparts : List.Forall₂ Alike parts parts') :
    Option.Rel (List.Forall₂ SameTree) (parts.mapM fun p => reader (strip p)).toOption
      (parts'.mapM fun p => reader (strip p)).toOption := by
  apply rel_mapM
  exact hparts.imp fun _ _ hpart => hreader hpart.strip

theorem readsAlike_readOperand (hnested : ReadsAlike nested) : ReadsAlike (readOperand nested) := by
  intro text other htexts
  have hstrip := htexts.strip
  unfold readOperand
  dsimp only
  generalize strip text = text, strip other = other at hstrip
  have hparen := hstrip.head?_eq_iff (x := '(') (by decide)
  rw [← hstrip.isEmpty_eq, ← hstrip.wraps_eq, ← decide_eq_decide.mpr hparen]
  by_cases hempty : text.isEmpty = true
  · rw [if_pos hempty, if_pos hempty]
    exact .none
  rw [if_neg hempty, if_neg hempty]
  by_cases hgroup : (decide (text.head? = some '(') && wraps text) = true
  · rw [if_pos hgroup, if_pos hgroup]
    rw [Bool.and_eq_true, decide_eq_true_eq] at hgroup
    exact hnested (hstrip.content rfl hgroup.1).strip
  rw [if_neg hgroup, if_neg hgroup]
  have hquoted := hstrip.quotedContent?
  generalize quotedContent? text = content, quotedContent? other = content' at hquoted
  cases hquoted with
  | some hquoted =>
      obtain ⟨quote, hquote, hcontents⟩ := hquoted
      exact .some (.quoted hquote hcontents)
  | none =>
  dsimp only
  -- No number, constant or name has a blank, so on texts that differ all of these fail.
  rw [← hstrip.congr (fun _ => number?_eq_none), ← hstrip.congr (fun _ => constant?_eq_none),
    ← hstrip.congr (fun _ => isVariableName_eq_false)]
  cases number? text with
  | some number => exact .some (.refl number)
  | none =>
  cases constant? text with
  | some constant => exact .some (.refl constant)
  | none =>
  have hcalls := hstrip.call?
  dsimp only
  generalize call? text = call, call? other = call' at hcalls
  cases hcalls with
  | some hcall =>
      have harguments := hcall.2.strip
      dsimp only
      rw [hcall.1, ← harguments.isEmpty_eq]
      split_ifs
      · exact .some (.refl _)
      · apply rel_bind (hnested.mapM harguments.splitCommas)
        exact fun _ _ hoperands => .some (.call _ hoperands)
  | none =>
      rcases hstrip.eq_or_any_isBlank with rfl | ⟨htext, -⟩
      · dsimp only
        split_ifs
        · exact .some (.refl _)
        · exact .none
      · rw [isVariableName_eq_false (any_isForeign_of_isBlank htext)]
        exact .none

theorem readsAlike_readComparison (hnested : ReadsAlike nested) :
    ReadsAlike (readComparison nested) := by
  intro text other htexts
  have hcuts := htexts.comparison?
  unfold readComparison
  generalize comparison? text = cut, comparison? other = cut' at hcuts
  cases hcuts with
  | none => exact readsAlike_readOperand hnested htexts
  | some hcut =>
      obtain ⟨hoperator, hleft, hright⟩ := hcut
      dsimp only
      rw [hoperator]
      apply rel_bind (readsAlike_readOperand hnested hleft)
      intro a a' ha
      apply rel_bind (readsAlike_readOperand hnested hright)
      intro b b' hb
      exact .some (.call _ (.cons ha (.cons hb .nil)))

theorem SameTree.negated {term term' : Term} (hterms : SameTree term term') (count : Nat) :
    SameTree (negated count term) (negated count term') := by
  induction count with
  | zero => exact hterms
  | succ count ih => exact .call _ (.cons ih .nil)

theorem readsAlike_readNegation (hnested : ReadsAlike nested) :
    ReadsAlike (readNegation nested) := by
  intro text other htexts
  obtain ⟨hcount, hrest⟩ := htexts.takeNots text.length
  unfold readNegation
  rw [← htexts.length_eq]
  dsimp only
  rw [hcount]
  apply rel_bind (readsAlike_readComparison hnested hrest)
  intro term term' hterms
  exact .some (hterms.negated _)

theorem readsAlike_readJoined {part : List Char → Except Malformed Term} (hpart : ReadsAlike part)
    (keyword : Keyword) (operator : String) : ReadsAlike (readJoined keyword operator part) := by
  intro text other htexts
  have hsplit := htexts.split keyword
  unfold readJoined
  have hblank : (keyword.split text).any (fun p => (strip p).isEmpty) =
      (keyword.split other).any fun p => (strip p).isEmpty := by
    generalize keyword.split text = parts, keyword.split other = parts' at hsplit
    induction hsplit with
    | nil => rfl
    | cons hpiece _ ih => rw [List.any_cons, List.any_cons, ih, hpiece.strip.isEmpty_eq]
  have hoperands := hpart.mapM hsplit
  generalize keyword.split text = parts, keyword.split other = parts' at hsplit hoperands hblank
  rcases hsplit with _ | ⟨hpiece, _ | ⟨hpiece', hpieces⟩⟩
  · exact .some (.refl _)
  · exact hpart htexts
  · dsimp only
    rw [← hblank]
    split_ifs
    · exact .none
    · apply rel_bind hoperands
      exact fun _ _ hoperands => .some (.call _ hoperands)

theorem readsAlike_readWithin (bound : Nat) : ReadsAlike (readWithin bound) := by
  induction bound with
  | zero => exact fun _ => .none
  | succ bound ih =>
      exact readsAlike_readJoined (readsAlike_readJoined (readsAlike_readNegation ih) _ _) _ _

theorem readsAlike_read : ReadsAlike read := by
  intro text other htexts
  have hstrip := htexts.strip
  unfold read
  dsimp only
  rw [← hstrip.isEmpty_eq, ← hstrip.length_eq]
  split_ifs
  · exact .none
  · exact readsAlike_readWithin _ hstrip

end Readers

/-! ## Texts without quotes inside -/

/-- A term that is no text with a quote in it. -/
def IsUnquoted (term : Term) : Prop :=
  ∀ content : String, term = .str content → content.toList.any isQuote = false

/-- Behind an open quote nothing differs before a quote comes. -/
theorem Respaced.eq_of_quote {scan : Scan} {before text other : List Char} {quote : Char}
    (hquote : isQuote quote = true) (hopen : scan.quote = some quote)
    (htext : text.any isQuote = false) (htexts : Respaced scan before text other) :
    text = other := by
  induction htexts with
  | nil => rfl
  | @same scan _ _ _ c _ ih =>
      rw [List.any_cons, Bool.or_eq_false_iff] at htext
      have hne : c ≠ quote := by
        rintro rfl
        rw [hquote] at htext
        cases htext.1
      have hstep : (scan.step c).quote = some quote := by
        rw [Scan.step, hopen]
        simpa [hne] using hopen
      rw [ih hstep htext.2]
  | blank hclosed _ _ _ _ _ =>
      rw [hopen] at hclosed
      cases hclosed

theorem SameTree.eq_of_isUnquoted {term term' : Term} (hterms : SameTree term term')
    (hunquoted : term.Throughout IsUnquoted) : term = term' := by
  induction term using Term.contents_induct generalizing term' with
  | _ term ih =>
  cases hterms with
  | refl => rfl
  | @quoted quote content content' hquote hcontents =>
      have htext : content.any isQuote = false := by
        rw [← String.toList_ofList (l := content)]
        exact hunquoted.self _ rfl
      have hlength : content.length = content'.length := by simpa using hcontents.length_eq
      have hopen : (Scan.start.step quote).quote = some quote := by
        simp [Scan.step, Scan.start, hquote]
      rw [(hcontents.tail.left hlength).eq_of_quote hquote hopen htext]
  | @call operator operands operands' hoperands =>
      have heach : ∀ operand ∈ operands, ∀ term', SameTree operand term' → operand = term' := by
        intro operand hmem term' hsame
        have hpart : operand ∈ (Term.call operator operands).contents := List.mem_cons_of_mem _ hmem
        exact ih operand hpart hsame (hunquoted.of_mem hpart)
      have hequal : List.Forall₂ (· = ·) operands operands' :=
        ((List.forall₂_and_left _ _).mpr ⟨heach, hoperands⟩).imp fun _ _ hsame => hsame.1 _ hsame.2
      rw [List.forall₂_eq_eq_eq] at hequal
      rw [hequal]

/-! ## Conditions -/

/-- One blank outside of quotes and not right behind `NOT` may be another. -/
theorem Respaced.of_isBlank {scan : Scan} {before front : List Char} {c d : Char}
    (hquote : (scan.after front).quote = none)
    (hnot : endsInNot (front.reverse ++ before) = false) (hc : isBlank c = true)
    (hd : isBlank d = true) (back : List Char) :
    Respaced scan before (front ++ c :: back) (front ++ d :: back) := by
  induction front generalizing scan before with
  | nil => exact .blank hquote hnot hc hd (.refl _ _ _)
  | cons x front ih =>
      rw [List.reverse_cons, List.append_assoc] at hnot
      exact .same x (ih hquote hnot)

/-- Conditions that differ in blanks are accepted together, and the trees are the same up to texts
that have quotes inside. -/
theorem reading?_of_alike {text other : String} (htexts : Alike text.toList other.toList) :
    (reading? text).isSome = (reading? other).isSome ∧
      ∀ term, reading? text = some term → ∃ term', reading? other = some term' ∧
        SameTree term term' ∧ (term.Throughout IsUnquoted → term' = term) := by
  have hread := readsAlike_read htexts
  rw [SameReading, ← reading?_of_toList rfl, ← reading?_of_toList rfl] at hread
  generalize reading? text = x, reading? other = y at hread
  cases hread with
  | none => exact ⟨rfl, fun _ hnone => nomatch hnone⟩
  | @some term term' hterms =>
      refine ⟨rfl, ?_⟩
      rintro _ ⟨⟩
      exact ⟨term', rfl, hterms, fun hunquoted => (hterms.eq_of_isUnquoted hunquoted).symm⟩

/-- Whether a blank outside of quotes and not right behind `NOT` is this one or a space makes no
difference to whether a condition is accepted, nor to what it is read as, if no text in this has
quotes inside. -/
theorem reading?_respaced (front back : String) {c : Char} (hc : isBlank c = true)
    (hquote : (Scan.start.after front.toList).quote = none)
    (hnot : endsInNot front.toList.reverse = false) :
    (reading? (front ++ String.singleton c ++ back)).isSome =
        (reading? (front ++ " " ++ back)).isSome ∧
      ∀ term, reading? (front ++ String.singleton c ++ back) = some term →
        ∃ term', reading? (front ++ " " ++ back) = some term' ∧ SameTree term term' ∧
          (term.Throughout IsUnquoted → term' = term) := by
  apply reading?_of_alike
  have hsides : ∀ d, (front ++ String.singleton d ++ back).toList =
      front.toList ++ d :: back.toList := by
    intro d
    simp
  rw [hsides, show " " = String.singleton ' ' from rfl, hsides]
  exact .of_isBlank hquote (by rwa [List.append_nil]) hc (by decide) _

/-- A line break may stand behind `AND`, and the operands on lines of their own. -/
theorem reading?_respaced_lines :
    isBlank '\n' = true ∧ (Scan.start.after "a AND".toList).quote = none ∧
      endsInNot "a AND".toList.reverse = false ∧
      reading? "a AND\n'b c'" = some (.call "and" [.variable "a", .str "b c"]) ∧
      reading? "a AND 'b c'" = some (.call "and" [.variable "a", .str "b c"]) := by
  have hlines : reading? ("a AND" ++ String.singleton '\n' ++ "'b c'") =
      some (.call "and" [.variable "a", .str "b c"]) := rfl
  have hunquoted : (Term.call "and" [.variable "a", .str "b c"]).Throughout IsUnquoted := by
    have hleaf : ∀ leaf ∈ [Term.variable "and", .variable "a", .str "b c"],
        leaf.Throughout IsUnquoted := by
      intro leaf hleaf
      simp only [List.mem_cons, List.not_mem_nil, or_false] at hleaf
      apply Term.Throughout.intro
      · rintro content rfl
        simp at hleaf
        subst hleaf
        decide
      · rcases hleaf with rfl | rfl | rfl <;> exact fun part hpart => nomatch hpart
    exact .intro (fun content hcontent => nomatch hcontent) hleaf
  obtain ⟨term, hline, -, hequal⟩ :=
    (reading?_respaced "a AND" "'b c'" (c := '\n') (by decide) (by decide) (by decide)).2 _ hlines
  rw [hequal hunquoted] at hline
  exact ⟨by decide, by decide, by decide, hlines, hline⟩

/-- Right behind `NOT` a tab is not what a space is. -/
theorem not_reading?_tab :
    ¬ ∀ (front back : String) (c : Char), c ∈ [' ', '\t', '\n', '\r'] →
      (Scan.start.after front.toList).quote = none →
      reading? (front ++ String.singleton c ++ back) = reading? (front ++ " " ++ back) := by
  intro hall
  have hsame := hall "NOT" "active" '\t' (by decide) (by decide)
  have htab : reading? ("NOT" ++ String.singleton '\t' ++ "active") = none := rfl
  have hspace : reading? ("NOT" ++ " " ++ "active") =
      some (.call "not" [.variable "active"]) := rfl
  rw [htab, hspace] at hsame
  cases hsame

end Condition
end Rulebook
