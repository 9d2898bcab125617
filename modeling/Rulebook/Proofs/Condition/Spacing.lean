import Rulebook.Proofs.Condition.Cutting
import Rulebook.Proofs.Condition.Nesting

/-!
# Blanks that separate

Outside of quotes it makes little difference which blank separates the words of a condition.  Every
cut looks for characters that are not blank, names end at any blank, and what is cut out is stripped
of all of them.  One place is different: a negation is recognised by `NOT` and a space, and by no
other blank.

So two texts are compared that differ only in blanks, at places outside of quotes and not right
behind `NOT`.  All cuts are made at the same places of both, and what they cut out differs in this
way again.
-/

namespace Rulebook
namespace Condition

open Text

/-! ## Blanks -/

/-- The blanks below and above the end of ASCII. -/
def blanks : List Nat :=
  [9, 10, 11, 12, 13, 28, 29, 30, 31, 32] ++ wideBlanks

theorem mem_blanks {c : Char} (hc : isBlank c = true) : c.toNat ∈ blanks := by
  unfold isBlank at hc
  split_ifs at hc with hascii
  · simp only [Bool.or_eq_true, Bool.and_eq_true, decide_eq_true_eq] at hc
    simp only [blanks, List.mem_append, List.mem_cons, List.not_mem_nil, or_false]
    omega
  · exact List.mem_append_right _ (List.contains_iff_mem.mp hc)

/-- What holds of all blanks is decided by going through them. -/
theorem isBlank_imp {p : Char → Bool} (hp : ∀ n ∈ blanks, p (Char.ofNat n) = true) {c : Char}
    (hc : isBlank c = true) : p c = true := by
  have hn := hp c.toNat (mem_blanks hc)
  rwa [Char.ofNat_toNat] at hn

/-- A character that is no blank even in upper case, and is neither a quote nor a parenthesis, a
comma or a part of a name, a number or a comparison. -/
theorem not_of_isBlank {c : Char} (hc : isBlank c = true) :
    isNameChar c = false ∧ isPlain c = true ∧ c.toUpper = c ∧ c.toLower = c ∧ c ≠ ',' ∧
      isComparisonChar c = false ∧ digitValue? c = none := by
  have hall := isBlank_imp (p := fun c => !isNameChar c && isPlain c && c.toUpper = c &&
    c.toLower = c && c ≠ ',' && !isComparisonChar c && (digitValue? c).isNone) (by decide +kernel) hc
  simpa [and_assoc] using hall

theorem Scan.after_of_quote {scan : Scan} (hquote : scan.quote = none) (text : List Char)
    (htext : text.all isPlain = true) : scan.after text = scan := by
  obtain ⟨quote, depth⟩ := scan
  subst hquote
  exact Scan.after_of_isPlain htext depth

theorem Scan.step_of_isBlank {scan : Scan} (hquote : scan.quote = none) {c : Char}
    (hc : isBlank c = true) : scan.step c = scan :=
  Scan.after_of_quote hquote [c] (by simp [not_of_isBlank hc])

/-! ## Texts that differ in blanks -/

/-- Whether a text, given in reverse, ends in the word `NOT` in any case. -/
def endsInNot : List Char → Bool
  | t :: o :: n :: rest => [n, o, t].map Char.toUpper = ['N', 'O', 'T'] && endsWord rest
  | _ => false

/-- Two texts differ only in blanks outside of quotes that are not right behind `NOT`.  A scan has
come to them behind a text, which is given in reverse. -/
inductive Respaced : Scan → List Char → List Char → List Char → Prop
  | nil {scan : Scan} {before : List Char} : Respaced scan before [] []
  | same {scan : Scan} {before text other : List Char} (c : Char)
      (hrest : Respaced (scan.step c) (c :: before) text other) :
      Respaced scan before (c :: text) (c :: other)
  | blank {scan : Scan} {before text other : List Char} {c d : Char} (hquote : scan.quote = none)
      (hnot : endsInNot before = false) (hc : isBlank c = true) (hd : isBlank d = true)
      (hrest : Respaced scan (c :: before) text other) :
      Respaced scan before (c :: text) (d :: other)

/-- Two texts on their own differ only in such blanks. -/
abbrev Alike (text other : List Char) : Prop :=
  Respaced .start [] text other

theorem Scan.quote_step {scan other : Scan} (hquote : other.quote = scan.quote) (c : Char) :
    (other.step c).quote = (scan.step c).quote := by
  have hraise : other = scan.raise (other.depth - scan.depth) := by
    obtain ⟨quote, depth⟩ := other
    obtain ⟨_, depth'⟩ := scan
    subst hquote
    simp [Scan.raise]
  rw [hraise, Scan.step_raise]
  rfl

/-- A text that ends in `NOT` goes on to do so in front of its beginning, if a word begins there. -/
theorem endsInNot_append {part before text : List Char} (hnot : endsInNot part = true)
    (hword : endsWord before = true ∨ endsWord (part.reverse ++ text) = true) :
    endsInNot (part ++ before) = true := by
  obtain ⟨t, o, n, rest, rfl⟩ : ∃ t o n rest, part = t :: o :: n :: rest := by
    unfold endsInNot at hnot
    split at hnot
    · exact ⟨_, _, _, _, rfl⟩
    · cases hnot
  simp only [endsInNot, Bool.and_eq_true, decide_eq_true_eq, List.cons_append] at hnot ⊢
  refine ⟨hnot.1, ?_⟩
  cases rest with
  | cons c rest => exact hnot.2
  | nil =>
      rcases hword with hbefore | hfront
      · exact hbefore
      · have hn : n.toUpper = 'N' := by simpa using congrArg List.head? hnot.1
        have hname : isNameChar n = true := by
          rw [← isNameChar_toUpper, hn]
          decide
        simp [endsWord, hname] at hfront

namespace Respaced

variable {scan : Scan} {before text other : List Char}

theorem refl (scan : Scan) (before text : List Char) : Respaced scan before text text := by
  induction text generalizing scan before with
  | nil => exact .nil
  | cons c rest ih => exact .same c (ih _ _)

theorem length_eq (htexts : Respaced scan before text other) : text.length = other.length := by
  induction htexts with
  | nil => rfl
  | same c _ ih => simp [ih]
  | blank _ _ _ _ _ ih => simp [ih]

theorem map_isBlank (htexts : Respaced scan before text other) :
    text.map isBlank = other.map isBlank := by
  induction htexts with
  | nil => rfl
  | same c _ ih => simp [ih]
  | blank _ _ hc hd _ ih => simp [ih, hc, hd]

theorem isEmpty_eq (htexts : Respaced scan before text other) : text.isEmpty = other.isEmpty := by
  cases htexts <;> rfl

theorem endsWord_eq (htexts : Respaced scan before text other) :
    endsWord text = endsWord other := by
  cases htexts with
  | nil => rfl
  | same c _ => rfl
  | blank _ _ hc hd _ => simp [endsWord, not_of_isBlank hc, not_of_isBlank hd]

theorem eq_or_any_isBlank (htexts : Respaced scan before text other) :
    text = other ∨ text.any isBlank = true ∧ other.any isBlank = true := by
  induction htexts with
  | nil => exact .inl rfl
  | same c _ ih =>
      rcases ih with rfl | ⟨htext, hother⟩
      · exact .inl rfl
      · exact .inr ⟨by simp [htext], by simp [hother]⟩
  | blank _ _ hc hd _ _ => exact .inr ⟨by simp [hc], by simp [hd]⟩

theorem left {front front' back back' : List Char}
    (htexts : Respaced scan before (front ++ back) (front' ++ back'))
    (hlength : front.length = front'.length) : Respaced scan before front front' := by
  induction front generalizing scan before front' with
  | nil =>
      obtain rfl := List.length_eq_zero_iff.mp hlength.symm
      exact .nil
  | cons c rest ih =>
      obtain ⟨d, rest', rfl⟩ := List.exists_cons_of_length_eq_add_one hlength.symm
      have hrest := Nat.succ.inj hlength
      cases htexts with
      | same _ htexts => exact .same c (ih htexts hrest)
      | blank hquote hnot hc hd htexts => exact .blank hquote hnot hc hd (ih htexts hrest)

theorem right {front front' back back' : List Char}
    (htexts : Respaced scan before (front ++ back) (front' ++ back'))
    (hlength : front.length = front'.length) :
    Respaced (scan.after front) (front.reverse ++ before) back back' := by
  induction front generalizing scan before front' with
  | nil =>
      obtain rfl := List.length_eq_zero_iff.mp hlength.symm
      exact htexts
  | cons c rest ih =>
      obtain ⟨d, rest', rfl⟩ := List.exists_cons_of_length_eq_add_one hlength.symm
      have hrest := Nat.succ.inj hlength
      rw [Scan.after_cons, List.reverse_cons, List.append_assoc]
      cases htexts with
      | same _ htexts => exact ih htexts hrest
      | blank hquote hnot hc hd htexts =>
          rw [Scan.step_of_isBlank hquote hc]
          exact ih htexts hrest

theorem drop (htexts : Respaced scan before text other) (count : Nat) :
    Respaced (scan.after (text.take count)) ((text.take count).reverse ++ before)
      (text.drop count) (other.drop count) := by
  have hlength := htexts.length_eq
  rw [← List.take_append_drop count text, ← List.take_append_drop count other] at htexts
  apply htexts.right
  rw [List.length_take, List.length_take, hlength]

/-- What stands behind a text may be looked at on its own, if no word goes on there. -/
theorem restart (htexts : Respaced scan before text other) {start : Scan}
    (hquote : start.quote = scan.quote)
    (hword : endsWord before = true ∨ endsWord text = true) : Respaced start [] text other := by
  have hrestart : ∀ {scan : Scan} {all text other part : List Char} {start : Scan},
      Respaced scan all text other → all = part ++ before → start.quote = scan.quote →
      (endsWord before = true ∨ endsWord (part.reverse ++ text) = true) →
      Respaced start part text other := by
    intro scan all text other part start htexts hall hquote hword
    induction htexts generalizing part start with
    | nil => exact .nil
    | same c _ ih =>
        apply Respaced.same c
        apply ih (by rw [hall]; rfl) (Scan.quote_step hquote c)
        rwa [List.reverse_cons, List.append_assoc]
    | blank hopen hnot hc hd _ ih =>
        have hstart : endsInNot part = false := by
          rw [Bool.eq_false_iff]
          intro hpart
          rw [hall, endsInNot_append hpart hword] at hnot
          cases hnot
        apply Respaced.blank (hquote.trans hopen) hstart hc hd
        apply ih (by rw [hall]; rfl) hquote
        rwa [List.reverse_cons, List.append_assoc]
  exact hrestart htexts rfl hquote hword

end Respaced

/-! ## Stripping -/

theorem Respaced.dropWhile {scan : Scan} {before text other : List Char}
    (htexts : Respaced scan before text other) (hquote : scan.quote = none)
    (hword : endsWord before = true) :
    Alike (text.dropWhile isBlank) (other.dropWhile isBlank) := by
  induction htexts with
  | nil => exact .nil
  | @same scan before text other c hrest ih =>
      by_cases hc : isBlank c = true
      · rw [List.dropWhile_cons_of_pos hc, List.dropWhile_cons_of_pos hc]
        apply ih
        · rwa [Scan.step_of_isBlank hquote hc]
        · simp [endsWord, not_of_isBlank hc]
      · rw [List.dropWhile_cons_of_neg hc, List.dropWhile_cons_of_neg hc]
        exact Respaced.restart (.same c hrest) hquote.symm (.inl hword)
  | blank _ _ hc hd _ ih =>
      rw [List.dropWhile_cons_of_pos hc, List.dropWhile_cons_of_pos hd]
      exact ih hquote (by simp [endsWord, not_of_isBlank hc])

namespace Alike

variable {text other : List Char}

theorem strip (htexts : Alike text other) : Alike (Text.strip text) (Text.strip other) := by
  have hfront : Alike (text.dropWhile isBlank) (other.dropWhile isBlank) :=
    Respaced.dropWhile htexts rfl rfl
  unfold Text.strip
  generalize text.dropWhile isBlank = text, other.dropWhile isBlank = other at hfront
  have hsplit : ∀ text : List Char, text = (text.reverse.dropWhile isBlank).reverse ++
      (text.reverse.takeWhile isBlank).reverse := by
    intro text
    rw [← List.reverse_append, List.takeWhile_append_dropWhile, List.reverse_reverse]
  have hlength : ∀ text : List Char, (text.reverse.dropWhile isBlank).reverse.length =
      ((text.map isBlank).reverse.dropWhile id).length := by
    intro text
    rw [List.length_reverse, ← List.map_reverse, List.dropWhile_map, List.length_map]
    rfl
  have hblanks := hfront.map_isBlank
  rw [hsplit text, hsplit other] at hfront
  apply Respaced.left hfront
  rw [hlength, hlength, hblanks]

end Alike

/-! ## Cutting -/

theorem Scan.isTop_of_isPlain {scan : Scan} {c : Char} (hc : isPlain c = true) :
    scan.isTop c = (scan.quote.isNone && scan.depth = 0) := by
  simp only [isPlain, Bool.and_eq_true, Bool.not_eq_true', decide_eq_true_eq] at hc
  simp [Scan.isTop, hc]

theorem Scan.quote_of_isTop {scan : Scan} {c : Char} (htop : scan.isTop c = true) :
    scan.quote = none := by
  simp only [Scan.isTop, Bool.and_eq_true, Option.isNone_iff_eq_none] at htop
  exact htop.1.1

theorem beginsWith_cons (x c : Char) (word text : List Char) :
    beginsWith (x :: word) (c :: text) = (c.toUpper = x && beginsWith word text) := by
  simp [beginsWith]

namespace Respaced

variable {scan : Scan} {before text other : List Char}

theorem beginsWith_eq (htexts : Respaced scan before text other) (word : List Char)
    (hword : word.all (!isBlank ·) = true) : beginsWith word text = beginsWith word other := by
  induction word generalizing scan before text other with
  | nil => rfl
  | cons x word ih =>
      rw [List.all_cons, Bool.and_eq_true] at hword
      cases htexts with
      | nil => rfl
      | same c htexts => rw [beginsWith_cons, beginsWith_cons, ih htexts hword.2]
      | blank _ _ hc hd _ =>
          have hne : ∀ {c : Char}, isBlank c = true → c ≠ x := by
            rintro c hc rfl
            simp [hc] at hword
          rw [beginsWith_cons, beginsWith_cons, (not_of_isBlank hc).2.2.1,
            (not_of_isBlank hd).2.2.1]
          simp [hne hc, hne hd]

theorem isTop_eq {c d : Char} (htexts : Respaced scan before (c :: text) (d :: other)) :
    scan.isTop c = scan.isTop d := by
  cases htexts with
  | same _ _ => rfl
  | blank _ _ hc hd _ =>
      rw [Scan.isTop_of_isPlain (not_of_isBlank hc).2.1,
        Scan.isTop_of_isPlain (not_of_isBlank hd).2.1]

/-- A character that is not blank stands at the same places. -/
theorem head_eq_iff {c d x : Char} (hx : isBlank x = false)
    (htexts : Respaced scan before (c :: text) (d :: other)) : c = x ↔ d = x := by
  cases htexts with
  | same _ _ => rfl
  | blank _ _ hc hd _ =>
      have hne : ∀ {c : Char}, isBlank c = true → c ≠ x := by
        rintro c hc rfl
        rw [hx] at hc
        cases hc
      exact iff_of_false (hne hc) (hne hd)

theorem decide_head_eq {c d x : Char} (hx : isBlank x = false)
    (htexts : Respaced scan before (c :: text) (d :: other)) :
    decide (c = x) = decide (d = x) := by
  simp only [htexts.head_eq_iff hx]

theorem tail {c d : Char} (htexts : Respaced scan before (c :: text) (d :: other)) :
    Respaced (scan.step c) (c :: before) text other := by
  cases htexts with
  | same _ htexts => exact htexts
  | blank hquote _ hc _ htexts => rwa [Scan.step_of_isBlank hquote hc]

theorem step_eq {c d : Char} (htexts : Respaced scan before (c :: text) (d :: other)) :
    scan.step c = scan.step d := by
  cases htexts with
  | same _ _ => rfl
  | blank hquote _ hc hd _ =>
      rw [Scan.step_of_isBlank hquote hc, Scan.step_of_isBlank hquote hd]

theorem isNameChar_eq {c d : Char} (htexts : Respaced scan before (c :: text) (d :: other)) :
    isNameChar c = isNameChar d := by
  cases htexts with
  | same _ _ => rfl
  | blank _ _ hc hd _ => rw [(not_of_isBlank hc).1, (not_of_isBlank hd).1]

theorem standsAt_eq (htexts : Respaced scan before text other) (keyword : Keyword)
    {last last' : Option Char} (hlast : last.any isNameChar = last'.any isNameChar) :
    keyword.standsAt scan last text = keyword.standsAt scan last' other := by
  have hword : keyword.text.all (!isBlank ·) = true := by cases keyword <;> decide
  have hbegins := htexts.beginsWith_eq _ hword
  have hends := (htexts.drop keyword.text.length).endsWord_eq
  rcases text with _ | ⟨c, text⟩ <;> rcases other with _ | ⟨d, other⟩
  · rfl
  · cases htexts
  · cases htexts
  · rw [Keyword.standsAt, Keyword.standsAt, htexts.isTop_eq, hbegins, hends, hlast]

end Respaced

theorem isPlain_of_isNameChar {c : Char} (hc : isNameChar c = true) : isPlain c = true := by
  have hne : ∀ d, isNameChar d = false → c ≠ d := by
    rintro d hd rfl
    rw [hc] at hd
    cases hd
  simp [isPlain, isQuote, hne '\'' (by decide), hne '"' (by decide), hne '(' (by decide),
    hne ')' (by decide)]

theorem isPlain_of_isCallName {name : List Char} (hname : isCallName name = true) :
    name.all isPlain = true := by
  rw [List.all_eq_true]
  exact fun c hc => isPlain_of_isNameChar
    ((isWord_of_isVariableName (isVariableName_of_isCallName hname)).isNameChar hc)

theorem Scan.after_word {scan : Scan} (hquote : scan.quote = none) (word : List Char)
    {text : List Char}
    (hword : word.all isNameChar = true) (hbegins : beginsWith word text = true) :
    scan.after (text.take word.length) = scan := by
  apply Scan.after_of_quote hquote _
  rw [beginsWith, decide_eq_true_eq] at hbegins
  rw [List.all_eq_true] at hword ⊢
  intro c hc
  have hname : isNameChar c.toUpper = true := hword _ (hbegins ▸ List.mem_map_of_mem hc)
  rw [isNameChar_toUpper] at hname
  exact isPlain_of_isNameChar hname

theorem Respaced.splitFrom {keyword : Keyword} {skip : Nat} {scan : Scan}
    {before text other part part' : List Char} {last last' : Option Char}
    (htexts : Respaced scan before text other)
    (hlast : last.any isNameChar = last'.any isNameChar) (hlength : part.length = part'.length)
    (hpart : Alike (part.reverse ++ text.drop skip) (part'.reverse ++ other.drop skip)) :
    List.Forall₂ Alike (keyword.splitFrom skip scan last part text)
      (keyword.splitFrom skip scan last' part' other) := by
  induction text generalizing skip scan before other part part' last last' with
  | nil =>
      obtain rfl : other = [] := List.length_eq_zero_iff.mp htexts.length_eq.symm
      rw [List.drop_nil, List.append_nil, List.append_nil] at hpart
      exact .cons hpart .nil
  | cons c text ih =>
      obtain ⟨d, other, rfl⟩ := List.exists_cons_of_length_eq_add_one htexts.length_eq.symm
      have hlast' : (some c).any isNameChar = (some d).any isNameChar := htexts.isNameChar_eq
      have hscan : scan.step c = scan.step d := htexts.step_eq
      rw [Keyword.splitFrom.eq_def, Keyword.splitFrom.eq_def]
      cases skip with
      | succ skip =>
          dsimp only
          rw [← hscan]
          exact ih htexts.tail hlast' hlength hpart
      | zero =>
          dsimp only
          rw [← hscan, htexts.standsAt_eq keyword hlast]
          split_ifs with hstands
          · rw [← htexts.standsAt_eq keyword hlast] at hstands
            refine .cons (hpart.left (by simpa using hlength)) (ih htexts.tail hlast' rfl ?_)
            -- Behind a keyword nothing is open, so what follows may be compared on its own.
            simp only [Keyword.standsAt, Bool.and_eq_true] at hstands
            obtain ⟨⟨⟨htop, hbegins⟩, -⟩, hends⟩ := hstands
            have hquote := Scan.quote_of_isTop htop
            have hbehind := htexts.drop keyword.text.length
            rw [Scan.after_word hquote _ keyword.text_all_isNameChar hbegins] at hbehind
            have hdrop : ∀ c (text : List Char), (c :: text).drop keyword.text.length =
                text.drop (keyword.text.length - 1) := by
              cases keyword <;> exact fun _ _ => rfl
            rw [hdrop, hdrop] at hbehind
            rw [hdrop] at hends
            exact hbehind.restart hquote.symm (.inr hends)
          · apply ih htexts.tail hlast'
            · simp [hlength]
            · simpa using hpart

theorem Respaced.splitCommasFrom {scan : Scan} {before text other part part' : List Char}
    (htexts : Respaced scan before text other) (hlength : part.length = part'.length)
    (hpart : Alike (part.reverse ++ text) (part'.reverse ++ other)) :
    List.Forall₂ Alike (splitCommasFrom scan part text) (splitCommasFrom scan part' other) := by
  induction text generalizing scan before other part part' with
  | nil =>
      obtain rfl : other = [] := List.length_eq_zero_iff.mp htexts.length_eq.symm
      rw [List.append_nil, List.append_nil] at hpart
      exact .cons hpart .nil
  | cons c text ih =>
      obtain ⟨d, other, rfl⟩ := List.exists_cons_of_length_eq_add_one htexts.length_eq.symm
      have hcomma : decide (c = ',') = decide (d = ',') := htexts.decide_head_eq (by decide)
      rw [Condition.splitCommasFrom, Condition.splitCommasFrom, ← htexts.step_eq,
        ← htexts.isTop_eq, ← hcomma]
      split_ifs with hcut
      · simp only [Bool.and_eq_true, decide_eq_true_eq] at hcut
        obtain ⟨rfl, htop⟩ := hcut
        refine .cons (hpart.left (by simpa using hlength)) (ih htexts.tail rfl ?_)
        have hquote := Scan.quote_of_isTop htop
        have hstep : scan.step ',' = scan := Scan.after_of_quote hquote [','] (by decide)
        apply htexts.tail.restart
        · rw [hstep, hquote]
          rfl
        · exact .inl rfl
      · apply ih htexts.tail
        · simp [hlength]
        · simpa using hpart

/-- A comparison is written with its characters, of which it has some. -/
structure IsSymbol (symbol : List Char) : Prop where
  ne_nil : symbol ≠ []
  chars : symbol.all isComparisonChar = true

theorem isSymbol_of_mem {symbol : List Char} {operator : String}
    (hmem : (symbol, operator) ∈ comparisons) : IsSymbol symbol := by
  have hsymbols : ∀ entry ∈ comparisons, entry.1 ≠ [] ∧ entry.1.all isComparisonChar = true := by
    decide
  exact ⟨(hsymbols _ hmem).1, (hsymbols _ hmem).2⟩

theorem not_of_isComparisonChar {c : Char} (hc : isComparisonChar c = true) :
    isBlank c = false ∧ isNameChar c = false ∧ isPlain c = true := by
  simp only [isComparisonChar, Bool.or_eq_true, decide_eq_true_eq] at hc
  rcases hc with ((rfl | rfl) | rfl) | rfl <;> decide

namespace Respaced

variable {scan : Scan} {before text other symbol : List Char}

theorem isPrefixOf_eq (htexts : Respaced scan before text other)
    (hsymbol : symbol.all isComparisonChar = true) :
    symbol.isPrefixOf text = symbol.isPrefixOf other := by
  induction symbol generalizing scan before text other with
  | nil => simp
  | cons x symbol ih =>
      rw [List.all_cons, Bool.and_eq_true] at hsymbol
      rcases text with _ | ⟨c, text⟩ <;> rcases other with _ | ⟨d, other⟩
      · rfl
      · cases htexts
      · cases htexts
      · have hhead := htexts.head_eq_iff (not_of_isComparisonChar hsymbol.1).1
        rw [List.isPrefixOf_cons_cons, List.isPrefixOf_cons_cons, ih htexts.tail hsymbol.2]
        simp only [beq_eq_decide, eq_comm (a := x), decide_eq_decide.mpr hhead]

theorem head?_eq_iff (htexts : Respaced scan before text other) {x : Char}
    (hx : isBlank x = false) : text.head? = some x ↔ other.head? = some x := by
  rcases text with _ | ⟨c, text⟩ <;> rcases other with _ | ⟨d, other⟩
  · rfl
  · cases htexts
  · cases htexts
  · simpa using htexts.head_eq_iff hx

theorem symbolStands_eq (htexts : Respaced scan before text other) (hsymbol : IsSymbol symbol) :
    symbolStands symbol text = symbolStands symbol other := by
  have hequals := (htexts.drop 1).head?_eq_iff (x := '=') (by decide)
  simp only [symbolStands, htexts.isPrefixOf_eq hsymbol.chars, hequals]

/-- What stands behind a comparison may be looked at on its own. -/
theorem behind_symbol (htexts : Respaced scan before text other) (hsymbol : IsSymbol symbol)
    (hquote : scan.quote = none) (hstands : symbolStands symbol text = true) :
    Alike (text.drop symbol.length) (other.drop symbol.length) := by
  have hbehind := htexts.drop symbol.length
  rw [symbolStands, Bool.and_eq_true, List.isPrefixOf_iff_prefix] at hstands
  rw [← List.prefix_iff_eq_take.mp hstands.1] at hbehind
  have hplain : symbol.all isPlain = true := by
    rw [List.all_eq_true]
    exact fun c hc => (not_of_isComparisonChar (List.all_eq_true.mp hsymbol.chars c hc)).2.2
  rw [Scan.after_of_quote hquote _ hplain] at hbehind
  apply hbehind.restart hquote.symm
  left
  obtain ⟨front, c, rfl⟩ := List.eq_nil_or_concat' symbol |>.resolve_left hsymbol.ne_nil
  have hchars := hsymbol.chars
  rw [List.all_append, List.all_cons, Bool.and_eq_true, Bool.and_eq_true] at hchars
  simp [endsWord, not_of_isComparisonChar hchars.2.1]

theorem cutSymbolFrom (front front' : List Char) (htexts : Respaced scan before text other)
    (hsymbol : IsSymbol symbol) (hlength : front.length = front'.length)
    (hfront : Alike (front.reverse ++ text) (front'.reverse ++ other)) :
    Option.Rel (fun cut cut' => Alike cut.1 cut'.1 ∧ Alike cut.2 cut'.2)
      (cutSymbolFrom symbol scan front text) (cutSymbolFrom symbol scan front' other) := by
  induction text generalizing scan before other front front' with
  | nil =>
      obtain rfl : other = [] := List.length_eq_zero_iff.mp htexts.length_eq.symm
      exact .none
  | cons c text ih =>
      obtain ⟨d, other, rfl⟩ := List.exists_cons_of_length_eq_add_one htexts.length_eq.symm
      rw [Condition.cutSymbolFrom, Condition.cutSymbolFrom, ← htexts.step_eq, ← htexts.isTop_eq,
        ← htexts.symbolStands_eq hsymbol]
      split_ifs with hcut
      · rw [Bool.and_eq_true] at hcut
        refine .some ⟨hfront.left (by simpa using hlength), ?_⟩
        exact htexts.behind_symbol hsymbol (Scan.quote_of_isTop hcut.1) hcut.2
      · apply ih _ _ htexts.tail
        · simp [hlength]
        · simpa using hfront

theorem wrapsFrom_eq (htexts : Respaced scan before text other) :
    wrapsFrom scan text = wrapsFrom scan other := by
  induction text generalizing scan before other with
  | nil =>
      obtain rfl : other = [] := List.length_eq_zero_iff.mp htexts.length_eq.symm
      rfl
  | cons c text ih =>
      obtain ⟨d, other, rfl⟩ := List.exists_cons_of_length_eq_add_one htexts.length_eq.symm
      have hclose : decide (c = ')') = decide (d = ')') := htexts.decide_head_eq (by decide)
      have htail := htexts.tail
      have hrest := ih htail
      have hwraps : ∀ c e text, wrapsFrom scan (c :: e :: text) =
          (!(c = ')' && scan.isTop c) && wrapsFrom (scan.step c) (e :: text)) := fun _ _ _ => rfl
      rcases text with _ | ⟨e, text⟩ <;> rcases other with _ | ⟨f, other⟩
      · rw [wrapsFrom, wrapsFrom, hclose, htexts.isTop_eq]
      · cases htail
      · cases htail
      · rw [hwraps, hwraps, hclose, htexts.isTop_eq, ← htexts.step_eq, hrest]

end Respaced

theorem findSome?_rel {related : β → γ → Prop} {f : α → Option β} {g : α → Option γ}
    {items : List α} (hitems : ∀ item ∈ items, Option.Rel related (f item) (g item)) :
    Option.Rel related (items.findSome? f) (items.findSome? g) := by
  induction items with
  | nil => exact .none
  | cons item rest ih =>
      obtain ⟨hitem, hrest⟩ := List.forall_mem_cons.mp hitems
      rw [List.findSome?_cons, List.findSome?_cons]
      generalize f item = x, g item = y at hitem
      cases hitem with
      | none => exact ih hrest
      | some hitem => exact .some hitem

/-! ## Negations -/

theorem beginsWith_append_singleton (word text : List Char) (x : Char) :
    beginsWith (word ++ [x]) text =
      (beginsWith word text && (text.drop word.length).head?.map Char.toUpper = some x) := by
  induction word generalizing text with
  | nil => cases text <;> simp [beginsWith]
  | cons y word ih =>
      cases text with
      | nil => simp [beginsWith]
      | cons c text =>
          rw [List.cons_append, beginsWith_cons, ih, beginsWith_cons, Bool.and_assoc]
          rfl

/-- A negation begins with the word `NOT`. -/
theorem beginsWith_of_beginsNot {text : List Char} (hnot : beginsNot text = true) :
    beginsWith ['N', 'O', 'T'] text = true ∧ endsWord (text.drop 3) = true := by
  have hbegins : ∀ x, isNameChar x = false → beginsWith (['N', 'O', 'T'] ++ [x]) text = true →
      beginsWith ['N', 'O', 'T'] text = true ∧ endsWord (text.drop 3) = true := by
    intro x hx hbegins
    rw [beginsWith_append_singleton, Bool.and_eq_true, decide_eq_true_eq] at hbegins
    refine ⟨hbegins.1, ?_⟩
    obtain ⟨c, hc, rfl⟩ := Option.map_eq_some_iff.mp hbegins.2
    obtain ⟨rest, hrest⟩ := List.head?_eq_some_iff.mp hc
    rw [isNameChar_toUpper] at hx
    have hdrop : text.drop 3 = c :: rest := hrest
    simp [hdrop, endsWord, hx]
  rw [beginsNot, Bool.or_eq_true] at hnot
  rcases hnot with hspace | hparen
  · exact hbegins ' ' (by decide) hspace
  · exact hbegins '(' (by decide) hparen

theorem endsInNot_of_beginsWith {text : List Char}
    (hnot : beginsWith ['N', 'O', 'T'] text = true) :
    endsInNot (text.take 3).reverse = true := by
  rcases text with _ | ⟨n, _ | ⟨o, _ | ⟨t, rest⟩⟩⟩
  · cases hnot
  · simp [beginsWith] at hnot
  · simp [beginsWith] at hnot
  · simpa [beginsWith, endsInNot, endsWord] using hnot

namespace Alike

variable {text other : List Char}

theorem split (htexts : Alike text other) (keyword : Keyword) :
    List.Forall₂ Alike (keyword.split text) (keyword.split other) :=
  Respaced.splitFrom htexts rfl rfl htexts

theorem splitCommas (htexts : Alike text other) :
    List.Forall₂ Alike (splitCommas text) (splitCommas other) :=
  Respaced.splitCommasFrom htexts rfl htexts

theorem wraps_eq (htexts : Alike text other) : wraps text = wraps other :=
  Respaced.wrapsFrom_eq htexts

theorem beginsNot_eq (htexts : Alike text other) : beginsNot text = beginsNot other := by
  have hword := htexts.beginsWith_eq ['N', 'O', 'T'] (by decide)
  have hnext := htexts.drop 3
  have hspace : beginsWith ['N', 'O', 'T', ' '] = fun text => beginsWith ['N', 'O', 'T'] text &&
      ((text.drop 3).head?.map Char.toUpper = some ' ' : Bool) := by
    funext text
    exact beginsWith_append_singleton ['N', 'O', 'T'] text ' '
  have hparen := htexts.beginsWith_eq ['N', 'O', 'T', '('] (by decide)
  rw [beginsNot, beginsNot, hparen, hspace]
  dsimp only
  by_cases hnot : beginsWith ['N', 'O', 'T'] text = true
  · rw [← hword, hnot]
    -- Right behind `NOT` the two texts are the same.
    generalize text.drop 3 = rest, other.drop 3 = rest' at hnext
    cases hnext with
    | nil => rfl
    | same c _ => rfl
    | blank _ hfree _ _ _ =>
        rw [List.append_nil, endsInNot_of_beginsWith hnot] at hfree
        cases hfree
  · rw [Bool.not_eq_true] at hnot
    rw [← hword, hnot, Bool.false_and, Bool.false_and]

/-- What stands behind `NOT` may be looked at on its own. -/
theorem drop_of_beginsNot (htexts : Alike text other) (hnot : beginsNot text = true) :
    Alike (text.drop 3) (other.drop 3) := by
  have hnext := htexts.drop 3
  obtain ⟨hword, hend⟩ := beginsWith_of_beginsNot hnot
  have hscan : Scan.start.after (text.take 3) = Scan.start :=
    Scan.after_word rfl ['N', 'O', 'T'] (by decide) hword
  rw [hscan] at hnext
  exact hnext.restart rfl (.inr hend)

theorem takeNots (htexts : Alike text other) (bound : Nat) :
    (takeNots bound text).1 = (takeNots bound other).1 ∧
      Alike (takeNots bound text).2 (takeNots bound other).2 := by
  induction bound generalizing text other with
  | zero => exact ⟨rfl, htexts.strip⟩
  | succ bound ih =>
      have hstrip := htexts.strip
      simp only [Condition.takeNots, ← hstrip.beginsNot_eq]
      split_ifs with hnot
      · obtain ⟨hcount, hrest⟩ := ih (hstrip.drop_of_beginsNot hnot)
        exact ⟨congrArg (· + 1) hcount, hrest⟩
      · exact ⟨rfl, hstrip⟩

theorem comparison? (htexts : Alike text other) :
    Option.Rel (fun cut cut' => cut.1 = cut'.1 ∧ Alike cut.2.1 cut'.2.1 ∧ Alike cut.2.2 cut'.2.2)
      (comparison? text) (comparison? other) := by
  apply findSome?_rel
  intro ⟨symbol, operator⟩ hmem
  have hcut := Respaced.cutSymbolFrom [] [] htexts (isSymbol_of_mem hmem) rfl htexts
  dsimp only [cutSymbol?]
  generalize cutSymbolFrom symbol .start [] text = x,
    cutSymbolFrom symbol .start [] other = y at hcut
  cases hcut with
  | none => exact .none
  | some hcut => exact .some ⟨rfl, hcut⟩

end Alike

end Condition
end Rulebook
