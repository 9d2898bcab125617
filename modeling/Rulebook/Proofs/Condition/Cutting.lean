import Rulebook.Proofs.Condition.Words

/-!
# Cutting joined texts

Texts that are joined by a keyword, by commas or by a comparison are cut into the same texts again,
provided that each of them is balanced and has no such cut at its own top.  The only text that is
examined beyond its ends is a keyword: whether it stands somewhere depends on its two neighbours.
-/

namespace Rulebook

namespace Condition

open Text

theorem IsWord.trimmed {text : List Char} (htext : IsWord text) : Trimmed text :=
  Trimmed.of_all htext.ne_nil (htext.all_imp (by decide))

/-- Letters end a word at the front of a text only if they are all of the word there. -/
theorem not_beginsWith_word {letters word rest : List Char}
    (hletters : letters.all isNameChar = true) (hword : IsWord word)
    (hne : word.map Char.toUpper ≠ letters) (hrest : endsWord rest = true) :
    ¬(beginsWith letters (word ++ rest) = true ∧
      endsWord ((word ++ rest).drop letters.length) = true) := by
  rintro ⟨hbegins, hends⟩
  rw [beginsWith, decide_eq_true_eq] at hbegins
  by_cases hlength : letters.length ≤ word.length
  · rw [List.drop_append_of_le_length hlength] at hends
    rw [List.take_append_of_le_length hlength] at hbegins
    cases hdrop : word.drop letters.length with
    | nil =>
        rw [List.take_of_length_le (List.drop_eq_nil_iff.mp hdrop)] at hbegins
        exact hne hbegins
    | cons d tail =>
        have hd : d ∈ word := List.mem_of_mem_drop (hdrop ▸ List.mem_cons_self)
        simp [hdrop, endsWord, hword.isNameChar hd] at hends
  · cases rest with
    | nil =>
        have hmap := congrArg List.length hbegins
        simp at hmap
        omega
    | cons d tail =>
        -- The letters go on behind the word, where no name character is.
        have hd : d.toUpper ∈ letters := by
          rw [← hbegins, List.take_append, List.map_append]
          apply List.mem_append_right
          obtain ⟨more, hmore⟩ : ∃ more, letters.length - word.length = more + 1 :=
            ⟨letters.length - word.length - 1, by omega⟩
          rw [hmore, List.take_succ_cons, List.map_cons]
          exact List.mem_cons_self
        have hname := List.all_eq_true.mp hletters _ hd
        rw [isNameChar_toUpper] at hname
        simp [endsWord, hname] at hrest

/-! ## Keywords -/

namespace Keyword

/-- The character in front of what follows a text. -/
def behind (before : Option Char) (text : List Char) : Option Char :=
  text.foldl (fun _ c => some c) before

/-- Whether a keyword stands nowhere in a text, which is followed by `rest`. -/
def absent (keyword : Keyword) (scan : Scan) (before : Option Char) (rest : List Char) :
    List Char → Bool
  | [] => true
  | c :: text =>
    !keyword.standsAt scan before (c :: text ++ rest) &&
      keyword.absent (scan.step c) (some c) rest text

/-- A keyword stands nowhere in a text at depth zero, as long as the neighbours of the text are
not part of a word with it. -/
def Free (keyword : Keyword) (text : List Char) : Prop :=
  ∀ before rest, before.any isNameChar = false → endsWord rest = true →
    keyword.absent (Scan.unquoted 0) before rest text = true

variable {keyword : Keyword}

theorem absent_append (scan : Scan) (before : Option Char) (rest front back : List Char) :
    keyword.absent scan before rest (front ++ back) =
      (keyword.absent scan before (back ++ rest) front &&
        keyword.absent (scan.after front) (behind before front) rest back) := by
  induction front generalizing scan before with
  | nil => rfl
  | cons c text ih =>
      rw [List.cons_append, absent, ih, absent, Scan.after_cons, Bool.and_assoc,
        List.cons_append, List.cons_append, List.append_assoc]
      rfl

/-- A text without the keyword goes into the current part as a whole. -/
theorem splitFrom_of_absent {scan : Scan} {before : Option Char} {rest text : List Char}
    (part : List Char) (htext : keyword.absent scan before rest text = true) :
    keyword.splitFrom 0 scan before part (text ++ rest) =
      keyword.splitFrom 0 (scan.after text) (behind before text) (text.reverse ++ part) rest := by
  induction text generalizing scan before part with
  | nil => rfl
  | cons c text ih =>
      rw [absent, Bool.and_eq_true, Bool.not_eq_true'] at htext
      have hstands : keyword.standsAt scan before (c :: (text ++ rest)) = false := htext.1
      rw [List.cons_append, splitFrom]
      simp only [hstands, Bool.false_eq_true, if_false]
      rw [ih (c :: part) htext.2, Scan.after_cons, List.reverse_cons, List.append_assoc,
        List.singleton_append]
      rfl

theorem text_all_isNameChar (keyword : Keyword) : keyword.text.all isNameChar = true := by
  cases keyword <;> decide

theorem standsAt_of_not_isNameChar {c : Char} (hc : isNameChar c = false) (scan : Scan)
    (before : Option Char) (rest : List Char) :
    keyword.standsAt scan before (c :: rest) = false := by
  have hbegins : beginsWith keyword.text (c :: rest) = false := by
    rw [beginsWith, decide_eq_false_iff_not]
    intro heq
    have hall := keyword.text_all_isNameChar
    rw [← heq] at hall
    have hlength : keyword.text.length = keyword.text.length - 1 + 1 := by
      cases keyword <;> rfl
    rw [hlength, List.take_succ_cons, List.map_cons, List.all_cons, isNameChar_toUpper, hc] at hall
    exact Bool.noConfusion hall
  simp [standsAt, hbegins]

/-- A keyword stands at the front of a word only if it is the word. -/
theorem standsAt_word {word rest : List Char} (hword : IsWord word)
    (hne : word.map Char.toUpper ≠ keyword.text) (hrest : endsWord rest = true)
    (scan : Scan) (before : Option Char) :
    keyword.standsAt scan before (word ++ rest) = false := by
  have hfalse := not_beginsWith_word keyword.text_all_isNameChar hword hne hrest
  obtain ⟨c, tail, rfl⟩ := List.exists_cons_of_ne_nil hword.ne_nil
  rw [List.cons_append] at hfalse ⊢
  rw [standsAt]
  grind

theorem standsAt_behind_name {before : Char} (hbefore : isNameChar before = true)
    (scan : Scan) (text : List Char) : keyword.standsAt scan (some before) text = false := by
  cases text with
  | nil => rfl
  | cons c rest => simp [standsAt, hbefore]

namespace Free

theorem nil : keyword.Free [] := fun _ _ _ _ => rfl

theorem word {word : List Char} (hword : IsWord word)
    (hne : word.map Char.toUpper ≠ keyword.text) : keyword.Free word := by
  intro before rest _ hrest
  have htail : ∀ (tail : List Char) (scan : Scan) (c : Char), isNameChar c = true →
      (∀ d ∈ tail, isNameChar d = true) → keyword.absent scan (some c) rest tail = true := by
    intro tail
    induction tail with
    | nil => intros; rfl
    | cons d tail ih =>
        intro scan c hc hall
        rw [absent, standsAt_behind_name hc, Bool.not_false, Bool.true_and]
        exact ih _ d (hall d List.mem_cons_self)
          fun e he => hall e (List.mem_cons_of_mem d he)
  have hstands := standsAt_word hword hne hrest (Scan.unquoted 0) before
  obtain ⟨c, tail, rfl⟩ := List.exists_cons_of_ne_nil hword.ne_nil
  rw [absent, hstands, Bool.not_false, Bool.true_and]
  exact htail tail _ c (hword.isNameChar List.mem_cons_self)
    fun d hd => hword.isNameChar (List.mem_cons_of_mem c hd)

/-- No neighbour matters where nothing stands at the top. -/
theorem absent_of_forall {scan : Scan} {before : Option Char} {rest text : List Char}
    (htext : ∀ front c back, text = front ++ c :: back → (scan.after front).isTop c = false) :
    keyword.absent scan before rest text = true := by
  induction text generalizing scan before with
  | nil => rfl
  | cons c tail ih =>
      have hhead : scan.isTop c = false := htext [] c tail rfl
      have htail : keyword.absent (scan.step c) (some c) rest tail = true := by
        apply ih
        intro front d back hsplit
        exact htext (c :: front) d back (by rw [hsplit, List.cons_append])
      simp [absent, standsAt, hhead, htail]

theorem absent_singleton {c : Char} (hc : isNameChar c = false) (scan : Scan)
    (before : Option Char) (rest : List Char) :
    keyword.absent scan before rest [c] = true := by
  simp [absent, standsAt_of_not_isNameChar hc]

/-- The texts on the two sides of a character that no word contains do not meet. -/
theorem append_cons {front back : List Char} {c : Char} (hbalanced : Balanced front)
    (hplain : isPlain c = true) (hc : isNameChar c = false)
    (hfront : keyword.Free front) (hback : keyword.Free back) :
    keyword.Free (front ++ c :: back) := by
  intro before rest hbefore hrest
  have hends : endsWord (c :: back ++ rest) = true := by simp [endsWord, hc]
  rw [absent_append, hfront before _ hbefore hends, hbalanced.after_unquoted, absent,
    List.cons_append, standsAt_of_not_isNameChar hc, Scan.step_of_isPlain hplain,
    hback (some c) rest (by simpa using hc) hrest]
  rfl

theorem cons {back : List Char} {c : Char} (hplain : isPlain c = true)
    (hc : isNameChar c = false) (hback : keyword.Free back) : keyword.Free (c :: back) :=
  append_cons Balanced.nil hplain hc Free.nil hback

theorem quoted {q : Char} {content : List Char} (hquote : isQuote q = true)
    (hq : q ∉ content) : keyword.Free (q :: content ++ [q]) := by
  intro before rest _ _
  have hname : isNameChar q = false := by
    simp only [isQuote, Bool.or_eq_true, decide_eq_true_eq] at hquote
    rcases hquote with rfl | rfl <;> decide
  have hopen : (Scan.unquoted 0).step q = ⟨some q, 0⟩ := by
    simp [Scan.step, Scan.unquoted, hquote]
  have hinside : keyword.absent ⟨some q, 0⟩ (some q) ([q] ++ rest) content = true := by
    apply absent_of_forall
    intro front c back hsplit
    have hfront : q ∉ front := fun hmem => hq (hsplit ▸ List.mem_append_left _ hmem)
    rw [Scan.after_content hfront]
    simp [Scan.isTop]
  rw [List.cons_append, absent, List.cons_append, standsAt_of_not_isNameChar hname, hopen,
    absent_append, hinside, absent_singleton hname]
  rfl

/-- Nothing inside parentheses stands at the top, so they may follow a name directly. -/
theorem append_group {front text : List Char} (hfrontBalanced : Balanced front)
    (hfront : keyword.Free front) (htext : Balanced text) :
    keyword.Free (front ++ ('(' :: text ++ [')'])) := by
  intro before rest hbefore _
  have hopenName : isNameChar '(' = false := by decide
  have hcloseName : isNameChar ')' = false := by decide
  have hends : endsWord ('(' :: text ++ [')'] ++ rest) = true := by simp [endsWord, hopenName]
  have hopen : (Scan.unquoted 0).step '(' = Scan.unquoted 1 := by decide
  have hinside : keyword.absent (Scan.unquoted 1) (some '(') ([')'] ++ rest) text = true :=
    absent_of_forall fun _ _ _ hsplit => htext.not_isTop hsplit one_pos
  rw [absent_append, hfront before _ hbefore hends, hfrontBalanced.after_unquoted,
    List.cons_append, absent, List.cons_append, standsAt_of_not_isNameChar hopenName, hopen,
    absent_append, hinside, absent_singleton hcloseName]
  rfl

theorem group {text : List Char} (htext : Balanced text) :
    keyword.Free ('(' :: text ++ [')']) :=
  append_group Balanced.nil Free.nil htext

end Free

/-- A keyword between two blanks, as it is written between parts. -/
def separator (keyword : Keyword) : List Char :=
  ' ' :: keyword.text ++ [' ']

theorem split_of_free {text : List Char} (htext : keyword.Free text) :
    keyword.split text = [text] := by
  have habsent := htext none [] rfl rfl
  have hsplit := splitFrom_of_absent [] habsent
  rw [List.append_nil, List.append_nil] at hsplit
  rw [split, Scan.start_eq_unquoted, hsplit, splitFrom, List.reverse_reverse]

/-- A keyword between two blanks ends the current part; the next one begins with the blank behind
it. -/
theorem splitFrom_separator (before : Option Char) (part rest : List Char) :
    keyword.splitFrom 0 (Scan.unquoted 0) before part (keyword.separator ++ rest) =
      (' ' :: part).reverse ::
        keyword.splitFrom 0 (Scan.unquoted 0) (some ' ') [' '] rest := by
  cases keyword <;>
    simp [separator, text, splitFrom, standsAt, beginsWith, endsWord, Scan.isTop, Scan.step,
      Scan.unquoted, isQuote, isNameChar, Text.isAlphanumeric]

/-- Parts joined by a keyword are found again, with the blanks that were put around it. -/
theorem map_strip_split_intercalate {parts : List (List Char)} (hne : parts ≠ [])
    (hbalanced : ∀ part ∈ parts, Balanced part) (hfree : ∀ part ∈ parts, keyword.Free part)
    (htrimmed : ∀ part ∈ parts, Trimmed part) :
    (keyword.split (keyword.separator.intercalate parts)).map strip = parts := by
  -- Behind a separator the next part begins with a blank, so the induction is for all leads.
  suffices hfrom : ∀ before lead, before.any isNameChar = false → lead.all isBlank = true →
      (keyword.splitFrom 0 (Scan.unquoted 0) before lead
        (keyword.separator.intercalate parts)).map strip = parts by
    exact hfrom none [] rfl rfl
  induction parts with
  | nil => exact absurd rfl hne
  | cons part parts ih =>
      intro before lead hbefore hlead
      have hpart := hfree part List.mem_cons_self
      have hstrip : ∀ trail, trail.all isBlank = true →
          strip (lead.reverse ++ part ++ trail) = part := fun trail htrail =>
        strip_padded (htrimmed part List.mem_cons_self) (by simpa using hlead) htrail
      cases parts with
      | nil =>
          have hsplit := splitFrom_of_absent lead (hpart before [] hbefore rfl)
          rw [List.append_nil] at hsplit
          rw [List.intercalate_singleton, hsplit, splitFrom, List.map_singleton,
            List.reverse_append, List.reverse_reverse]
          simpa using hstrip [] rfl
      | cons next parts =>
          have hends : endsWord (keyword.separator ++
              keyword.separator.intercalate (next :: parts)) = true := by
            simp [separator, endsWord, isNameChar, Text.isAlphanumeric]
          have hrest := ih (List.cons_ne_nil next parts)
            (fun p hp => hbalanced p (List.mem_cons_of_mem part hp))
            (fun p hp => hfree p (List.mem_cons_of_mem part hp))
            (fun p hp => htrimmed p (List.mem_cons_of_mem part hp))
            (some ' ') [' '] (by decide) (by decide)
          rw [List.intercalate_cons_cons, List.append_assoc,
            splitFrom_of_absent lead (hpart before _ hbefore hends),
            (hbalanced part List.mem_cons_self).after_unquoted, splitFrom_separator,
            List.map_cons, hrest]
          have hhead := hstrip [' '] (by decide)
          simpa using hhead

end Keyword

/-! ## Commas -/

theorem splitCommasFrom_of_topAll {scan : Scan} {text : List Char} (part rest : List Char)
    (htext : scan.everyTop (· ≠ ',') text = true) :
    splitCommasFrom scan part (text ++ rest) =
      splitCommasFrom (scan.after text) (text.reverse ++ part) rest := by
  induction text generalizing scan part with
  | nil => rfl
  | cons c text ih =>
      rw [Scan.everyTop, Bool.and_eq_true] at htext
      have hcut : (decide (c = ',') && scan.isTop c) = false := by
        have hhead := htext.1
        cases htop : scan.isTop c <;> simp_all
      rw [List.cons_append, splitCommasFrom]
      simp only [hcut, Bool.false_eq_true, if_false]
      rw [ih (c :: part) htext.2, Scan.after_cons, List.reverse_cons, List.append_assoc,
        List.singleton_append]

theorem map_strip_splitCommas_intercalate {parts : List (List Char)} (hne : parts ≠ [])
    (hbalanced : ∀ part ∈ parts, Balanced part)
    (hcommas : ∀ part ∈ parts, TopAll (· ≠ ',') part)
    (htrimmed : ∀ part ∈ parts, Trimmed part) :
    (splitCommas ([',', ' '].intercalate parts)).map strip = parts := by
  suffices hfrom : ∀ lead, lead.all isBlank = true →
      (splitCommasFrom (Scan.unquoted 0) lead ([',', ' '].intercalate parts)).map strip =
        parts by
    exact hfrom [] rfl
  induction parts with
  | nil => exact absurd rfl hne
  | cons part parts ih =>
      intro lead hlead
      have hstrip : strip (lead.reverse ++ part) = part :=
        strip_behind (htrimmed part List.mem_cons_self) (by simpa using hlead)
      have hpart := hcommas part List.mem_cons_self
      cases parts with
      | nil =>
          have hsplit := splitCommasFrom_of_topAll lead [] hpart
          rw [List.append_nil] at hsplit
          rw [List.intercalate_singleton, hsplit, splitCommasFrom, List.map_singleton,
            List.reverse_append, List.reverse_reverse, hstrip]
      | cons next parts =>
          have hrest := ih (List.cons_ne_nil next parts)
            (fun p hp => hbalanced p (List.mem_cons_of_mem part hp))
            (fun p hp => hcommas p (List.mem_cons_of_mem part hp))
            (fun p hp => htrimmed p (List.mem_cons_of_mem part hp))
            [' '] (by decide)
          rw [List.intercalate_cons_cons, List.append_assoc, splitCommasFrom_of_topAll lead _ hpart,
            (hbalanced part List.mem_cons_self).after_unquoted]
          have hcomma : ∀ tail, splitCommasFrom (Scan.unquoted 0) (part.reverse ++ lead)
              ([',', ' '] ++ tail) =
                (part.reverse ++ lead).reverse ::
                  splitCommasFrom (Scan.unquoted 0) [' '] tail := by
            intro tail
            simp [splitCommasFrom, Scan.isTop, Scan.step, Scan.unquoted, isQuote]
          rw [hcomma, List.map_cons, hrest, List.reverse_append, List.reverse_reverse, hstrip]

/-! ## Comparisons -/

inductive Comparison where
  | atMost
  | atLeast
  | notEqual
  | equal
  | less
  | greater
deriving DecidableEq

namespace Comparison

def symbol : Comparison → List Char
  | .atMost => ['<', '=']
  | .atLeast => ['>', '=']
  | .notEqual => ['!', '=']
  | .equal => ['=', '=']
  | .less => ['<']
  | .greater => ['>']

def operator : Comparison → String
  | .atMost => "<="
  | .atLeast => ">="
  | .notEqual => "!="
  | .equal => "="
  | .less => "<"
  | .greater => ">"

/-- The comparisons in the order in which a condition is searched for them. -/
def all : List Comparison :=
  [.atMost, .atLeast, .notEqual, .equal, .less, .greater]

theorem comparisons_eq : comparisons = all.map fun c => (c.symbol, c.operator) := rfl

end Comparison

/-- No keyword stands around a comparison, for there is none in its symbol. -/
theorem Keyword.Free.compared {keyword : Keyword} (comparison : Comparison)
    {left right : List Char} (hbalanced : Balanced left) (hleft : keyword.Free left)
    (hright : keyword.Free right) :
    keyword.Free (left ++ (' ' :: comparison.symbol ++ ' ' :: right)) := by
  have hbehind : keyword.Free (comparison.symbol ++ ' ' :: right) := by
    have hspace := Keyword.Free.cons (by decide : isPlain ' ' = true) (by decide) hright
    cases comparison <;>
      repeat' first
        | exact hspace
        | apply Keyword.Free.cons (by decide) (by decide)
  exact Keyword.Free.append_cons hbalanced (by decide : isPlain ' ' = true) (by decide) hleft
    hbehind

theorem cutSymbolFrom_of_topAll {scan : Scan} {text : List Char} (comparison : Comparison)
    (front rest : List Char) (htext : scan.everyTop (!isComparisonChar ·) text = true) :
    cutSymbolFrom comparison.symbol scan front (text ++ rest) =
      cutSymbolFrom comparison.symbol (scan.after text) (text.reverse ++ front) rest := by
  induction text generalizing scan front with
  | nil => rfl
  | cons c text ih =>
      rw [Scan.everyTop, Bool.and_eq_true] at htext
      have hcut : (scan.isTop c && symbolStands comparison.symbol (c :: (text ++ rest))) =
          false := by
        cases htop : scan.isTop c with
        | false => rfl
        | true =>
            have hc : isComparisonChar c = false := by simpa [htop] using htext.1
            simp only [isComparisonChar, Bool.or_eq_false_iff, decide_eq_false_iff_not] at hc
            cases comparison <;>
              simp [symbolStands, Comparison.symbol, List.isPrefixOf, Ne.symm, hc]
      rw [List.cons_append, cutSymbolFrom]
      simp only [hcut, Bool.false_eq_true, if_false]
      rw [ih (c :: front) htext.2, Scan.after_cons, List.reverse_cons, List.append_assoc,
        List.singleton_append]

theorem cutSymbol?_of_topAll {text : List Char} (comparison : Comparison)
    (htext : TopAll (!isComparisonChar ·) text) : cutSymbol? comparison.symbol text = none := by
  have hcut := cutSymbolFrom_of_topAll comparison [] [] htext
  rw [List.append_nil] at hcut
  rw [cutSymbol?, Scan.start_eq_unquoted, hcut, cutSymbolFrom]

/-- Of all comparisons, only the one that is written between two operands is found there. -/
theorem cutSymbol?_between {left right : List Char} (sought written : Comparison)
    (hbalanced : Balanced left) (hleft : TopAll (!isComparisonChar ·) left)
    (hright : TopAll (!isComparisonChar ·) right) :
    cutSymbol? sought.symbol (left ++ (' ' :: written.symbol ++ ' ' :: right)) =
      if sought = written then some (left ++ [' '], ' ' :: right) else none := by
  have hrest : ∀ front, cutSymbolFrom sought.symbol (Scan.unquoted 0) front right = none := by
    intro front
    have hcut := cutSymbolFrom_of_topAll sought front [] hright
    rw [List.append_nil] at hcut
    rw [hcut, cutSymbolFrom]
  rw [cutSymbol?, Scan.start_eq_unquoted, cutSymbolFrom_of_topAll sought [] _ hleft,
    hbalanced.after_unquoted]
  cases sought <;> cases written <;>
    simp [Comparison.symbol, cutSymbolFrom, symbolStands, Scan.isTop, Scan.step, Scan.unquoted,
      isQuote, List.isPrefixOf] <;>
    simpa [Comparison.symbol, Scan.unquoted] using hrest _

theorem comparison?_of_topAll {text : List Char} (htext : TopAll (!isComparisonChar ·) text) :
    comparison? text = none := by
  rw [comparison?, Comparison.comparisons_eq, List.findSome?_map, List.findSome?_eq_none_iff]
  intro comparison _
  simp [cutSymbol?_of_topAll comparison htext]

theorem comparison?_between {left right : List Char} (comparison : Comparison)
    (hbalanced : Balanced left) (hleft : TopAll (!isComparisonChar ·) left)
    (hright : TopAll (!isComparisonChar ·) right) :
    comparison? (left ++ (' ' :: comparison.symbol ++ ' ' :: right)) =
      some (comparison.operator, left ++ [' '], ' ' :: right) := by
  have hcut : ∀ sought : Comparison, _ := fun sought =>
    cutSymbol?_between sought comparison hbalanced hleft hright
  rw [comparison?, Comparison.comparisons_eq, List.findSome?_map]
  simp only [Comparison.all, List.findSome?_cons, Function.comp_apply, hcut]
  cases comparison <;> rfl

/-! ## Parentheses -/

theorem wraps_group {text : List Char} (htext : Balanced text) :
    wraps ('(' :: text ++ [')']) = true := by
  have hinside : ∀ (text : List Char) (scan : Scan),
      (∀ front c back, text = front ++ c :: back → (scan.after front).isTop c = false) →
      scan.after text = Scan.unquoted 1 → wrapsFrom scan (text ++ [')']) = true := by
    intro text
    induction text with
    | nil =>
        rintro scan _ rfl
        decide
    | cons c text ih =>
        intro scan htop hafter
        have hhead : scan.isTop c = false := htop [] c text rfl
        have hrest : wrapsFrom (scan.step c) (text ++ [')']) = true := by
          apply ih _ _ hafter
          intro front d back hsplit
          exact htop (c :: front) d back (by rw [hsplit, List.cons_append])
        rw [List.cons_append, wrapsFrom, hrest, hhead]
        · simp
        · simp
  have hopen : Scan.start.step '(' = Scan.unquoted 1 := by decide
  rw [wraps, List.cons_append, wrapsFrom, hopen,
    hinside text _ (fun _ _ _ hsplit => htext.not_isTop hsplit one_pos)
      (htext.after_unquoted 1)]
  · decide
  · simp

end Condition
end Rulebook
