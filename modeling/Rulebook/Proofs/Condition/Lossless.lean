import Rulebook.Proofs.Condition.Pieces

/-!
# Splitting loses nothing and misses nothing

A text is split at the places where a word is found, and which places these are can be said of the
text alone: by the letters there, by what is open in front of them, and by the two neighbours.  Put
back between the parts, the words make the text again, and there is no further such place.

This is more than a fact about lists, since a part is scanned anew.  A word is found only where
nothing is open, and nothing is open behind it, so in front of each of its characters a part has
open what the text has.  Hence what is split off is not split any further.
-/

namespace Rulebook
namespace Condition

def scanAt (text : List Char) (i : Nat) : Scan :=
  Scan.start.after (text.take i)

theorem scanAt_append (front back : List Char) (i : Nat) :
    scanAt (front ++ back) (front.length + i) = (Scan.start.after front).after (back.take i) := by
  rw [scanAt, List.take_length_add_append, Scan.after_append]

theorem scanAt_append_of_le {front : List Char} {i : Nat} (hi : i ≤ front.length)
    (back : List Char) : scanAt (front ++ back) i = scanAt front i := by
  rw [scanAt, List.take_append_of_le_length hi, scanAt]

/-! ## Parts and their places -/

/-- The parts of a text with the places where they begin, if words of one width are between them. -/
def placed (width : Nat) : List (List Char) → List (Nat × List Char)
  | [] => []
  | part :: parts => (0, part) :: (placed width parts).map (Prod.map (part.length + width + ·) id)

/-- The places where parts end and others follow. -/
def cuts (width : Nat) (parts : List (List Char)) : List Nat :=
  (placed width parts).dropLast.map fun place => place.1 + place.2.length

/-- Parts with words between them. -/
def interleaved : List (List Char) → List (List Char) → List Char
  | part :: parts, word :: words => part ++ word ++ interleaved parts words
  | parts, [] => parts.flatten
  | [], words => words.flatten

/-- A text is split exactly at the places of some words. -/
structure Splits (width : Nat) (occurs : List Char → Nat → Prop)
    (split : List Char → List (List Char)) (text : List Char) : Prop where
  rebuilt : interleaved (split text)
    ((cuts width (split text)).map fun i => (text.drop i).take width) = text
  cut_iff : ∀ i, i ∈ cuts width (split text) ↔ occurs text i
  scanned : ∀ place ∈ placed width (split text), ∀ i ≤ place.2.length,
    scanAt place.2 i = scanAt text (place.1 + i)
  alone : ∀ part ∈ split text, split part = [part]

/-- Between `front` and `rest` stands the first word at which a text is cut.  Nothing is open around
it, there is no further one before `rest`, and the ones in `rest` are those of `rest` alone. -/
structure IsFirst (width : Nat) (occurs : List Char → Nat → Prop)
    (front word rest : List Char) : Prop where
  length_eq : word.length = width
  top : Scan.start.after front = Scan.start
  passed : Scan.start.after word = Scan.start
  none : ∀ i, ¬occurs front i
  before : ∀ i < front.length, ¬occurs (front ++ word ++ rest) i
  here : occurs (front ++ word ++ rest) front.length
  inside : ∀ i < width, 0 < i → ¬occurs (front ++ word ++ rest) (front.length + i)
  behind : ∀ i, occurs (front ++ word ++ rest) (front.length + width + i) ↔ occurs rest i

/-- A text is cut at the first word, and what follows is cut in the same way. -/
inductive Parted (width : Nat) (occurs : List Char → Nat → Prop) :
    List Char → List (List Char) → Prop
  | whole {text : List Char} (hnone : ∀ i, ¬occurs text i) : Parted width occurs text [text]
  | cut {front word rest : List Char} {parts : List (List Char)}
      (hfirst : IsFirst width occurs front word rest) (hrest : Parted width occurs rest parts) :
      Parted width occurs (front ++ word ++ rest) (front :: parts)

/-- The words of a text are the first one and those behind it. -/
theorem IsFirst.occurs_iff {width : Nat} {occurs : List Char → Nat → Prop}
    {front word rest : List Char} (hfirst : IsFirst width occurs front word rest) (i : Nat) :
    occurs (front ++ word ++ rest) i ↔
      i = front.length ∨ ∃ j, occurs rest j ∧ front.length + width + j = i := by
  constructor
  · intro hoccurs
    rcases lt_trichotomy i front.length with hi | rfl | hi
    · exact absurd hoccurs (hfirst.before i hi)
    · exact .inl rfl
    · obtain ⟨k, rfl⟩ := Nat.exists_eq_add_of_le hi.le
      by_cases hk : k < width
      · exact absurd hoccurs (hfirst.inside k hk (by omega))
      · obtain ⟨j, rfl⟩ := Nat.exists_eq_add_of_le (Nat.le_of_not_lt hk)
        rw [← Nat.add_assoc] at hoccurs ⊢
        exact .inr ⟨j, (hfirst.behind j).mp hoccurs, rfl⟩
  · rintro (rfl | ⟨j, hj, rfl⟩)
    · exact hfirst.here
    · exact (hfirst.behind j).mpr hj

theorem placed_ne_nil {width : Nat} {parts : List (List Char)} (hparts : parts ≠ []) :
    placed width parts ≠ [] := by
  obtain ⟨part, parts, rfl⟩ := List.exists_cons_of_ne_nil hparts
  exact List.cons_ne_nil _ _

theorem cuts_cons {width : Nat} (part : List Char) {parts : List (List Char)}
    (hparts : parts ≠ []) :
    cuts width (part :: parts) =
      part.length :: (cuts width parts).map (part.length + width + ·) := by
  have hne : (placed width parts).map (Prod.map (part.length + width + ·) id) ≠ [] :=
    mt List.map_eq_nil_iff.mp (placed_ne_nil hparts)
  rw [cuts, placed, List.dropLast_cons_of_ne_nil hne, List.map_cons, Nat.zero_add,
    ← List.map_dropLast, cuts, List.map_map, List.map_map]
  congr 1
  apply List.map_congr_left
  intro place _
  simp [Nat.add_assoc]

namespace Parted

variable {width : Nat} {occurs : List Char → Nat → Prop} {text : List Char}
  {parts : List (List Char)}

theorem ne_nil (hparted : Parted width occurs text parts) : parts ≠ [] := by
  cases hparted <;> exact List.cons_ne_nil _ _

theorem mem_cuts_iff (hparted : Parted width occurs text parts) (i : Nat) :
    i ∈ cuts width parts ↔ occurs text i := by
  induction hparted generalizing i with
  | whole hnone => simp [cuts, placed, hnone]
  | cut hfirst hrest ih =>
      rw [cuts_cons _ hrest.ne_nil, List.mem_cons, List.mem_map, hfirst.occurs_iff]
      simp only [ih]

theorem interleaved_eq (hparted : Parted width occurs text parts) :
    interleaved parts ((cuts width parts).map fun i => (text.drop i).take width) = text := by
  induction hparted with
  | whole _ => simp [cuts, placed, interleaved]
  | @cut front word rest parts hfirst hrest ih =>
      have hhere : ((front ++ word ++ rest).drop front.length).take width = word := by
        rw [List.append_assoc, List.drop_left, ← hfirst.length_eq, List.take_left]
      have hlater : ∀ i, (front ++ word ++ rest).drop (front.length + width + i) = rest.drop i := by
        intro i
        rw [← hfirst.length_eq, ← List.length_append, List.drop_length_add_append]
      rw [cuts_cons _ hrest.ne_nil, List.map_cons, List.map_map, hhere, interleaved]
      simp only [Function.comp_def, hlater]
      rw [ih]

theorem scanAt_eq (hparted : Parted width occurs text parts) {place : Nat × List Char}
    (hplace : place ∈ placed width parts) {i : Nat} (hi : i ≤ place.2.length) :
    scanAt place.2 i = scanAt text (place.1 + i) := by
  induction hparted generalizing place with
  | whole _ =>
      rw [placed, placed, List.map_nil, List.mem_singleton] at hplace
      rw [hplace, Nat.zero_add]
  | @cut front word rest parts hfirst _ ih =>
      rw [placed, List.mem_cons, List.mem_map] at hplace
      rcases hplace with rfl | ⟨later, hlater, rfl⟩
      · rw [Nat.zero_add, List.append_assoc, scanAt_append_of_le hi]
      · have hpassed : Scan.start.after (front ++ word) = Scan.start := by
          rw [Scan.after_append, hfirst.top, hfirst.passed]
        rw [Prod.map_fst, Prod.map_snd, id_eq, ih hlater hi, ← hfirst.length_eq,
          ← List.length_append, Nat.add_assoc, scanAt_append, hpassed, scanAt]

theorem not_occurs_of_mem (hparted : Parted width occurs text parts) {part : List Char}
    (hpart : part ∈ parts) (i : Nat) : ¬occurs part i := by
  induction hparted with
  | whole hnone =>
      rw [List.mem_singleton.mp hpart]
      exact hnone i
  | cut hfirst _ ih =>
      rcases List.mem_cons.mp hpart with rfl | hlater
      · exact hfirst.none i
      · exact ih hlater

theorem eq_singleton (hparted : Parted width occurs text parts) (hnone : ∀ i, ¬occurs text i) :
    parts = [text] := by
  cases hparted with
  | whole _ => rfl
  | cut hfirst _ => exact absurd hfirst.here (hnone _)

end Parted

/-- What parts every text at the places of some words splits a text exactly there. -/
theorem Splits.of_parted {width : Nat} {occurs : List Char → Nat → Prop}
    {split : List Char → List (List Char)}
    (hparted : ∀ text, Parted width occurs text (split text)) (text : List Char) :
    Splits width occurs split text where
  rebuilt := (hparted text).interleaved_eq
  cut_iff := (hparted text).mem_cuts_iff
  scanned _ hplace _ hi := (hparted text).scanAt_eq hplace hi
  alone part hpart := (hparted part).eq_singleton ((hparted text).not_occurs_of_mem hpart)

/-! ## Keywords -/

namespace Keyword

variable {keyword : Keyword}

/-- A keyword, in any case, at a place of a text where nothing is open and no word goes on to
either side. -/
structure OccursAt (keyword : Keyword) (text : List Char) (i : Nat) : Prop where
  letters : ((text.drop i).take keyword.text.length).map Char.toUpper = keyword.text
  outside : scanAt text i = Scan.start
  before : ∀ c ∈ (text.take i).getLast?, isNameChar c = false
  behind : ∀ c ∈ (text.drop (i + keyword.text.length)).head?, isNameChar c = false

theorem endsWord_iff {text : List Char} :
    endsWord text = true ↔ ∀ c ∈ text.head?, isNameChar c = false := by
  cases text <;> simp [endsWord]

theorem any_getLast?_iff {text : List Char} :
    text.getLast?.any isNameChar = false ↔ ∀ c ∈ text.getLast?, isNameChar c = false := by
  cases text.getLast? <;> simp

/-- What a keyword is made of is not what a word ends before. -/
theorem not_beginsWith_of_endsWord {text : List Char} (hends : endsWord text = true) :
    beginsWith keyword.text text = false := by
  by_contra hbegins
  rw [Bool.not_eq_false, ← List.nil_append text] at hbegins
  have hlength := length_le_of_beginsWith keyword.text_all_isNameChar hends hbegins
  revert hlength
  cases keyword <;> decide

/-- A keyword occurs where it is found, no matter what stands in front of the text. -/
theorem occursAt_of_standsAt {before : Option Char} {front later : List Char}
    (hstands : keyword.standsAt (Scan.start.after front) (Keyword.behind before front) later =
      true) :
    keyword.OccursAt (front ++ later) front.length := by
  have hscan := eq_start_of_standsAt hstands
  obtain ⟨c, rest, rfl⟩ := List.exists_cons_of_ne_nil (ne_nil_of_standsAt hstands)
  simp only [standsAt, Bool.and_eq_true, Bool.not_eq_true', behind_eq] at hstands
  obtain ⟨⟨⟨-, hbegins⟩, hbefore⟩, hbehind⟩ := hstands
  constructor
  · rw [List.drop_left]
    exact decide_eq_true_eq.mp hbegins
  · rw [scanAt, List.take_left, hscan]
  · rw [List.take_left]
    intro d hd
    rwa [Option.mem_def.mp hd] at hbefore
  · rw [List.drop_length_add_append]
    exact endsWord_iff.mp hbehind

theorem OccursAt.standsAt {text : List Char} {i : Nat} (hoccurs : keyword.OccursAt text i) :
    keyword.standsAt (scanAt text i) (Keyword.behind none (text.take i)) (text.drop i) = true := by
  have hbegins : beginsWith keyword.text (text.drop i) = true :=
    decide_eq_true_eq.mpr hoccurs.letters
  have hbefore := any_getLast?_iff.mpr hoccurs.before
  have hbehind := endsWord_iff.mpr hoccurs.behind
  rw [← List.drop_drop] at hbehind
  cases hdrop : text.drop i with
  | nil =>
      rw [hdrop, not_beginsWith_of_endsWord rfl] at hbegins
      cases hbegins
  | cons c rest =>
      have hname : isNameChar c = true := by
        by_contra hc
        rw [hdrop, not_beginsWith_of_endsWord (by simpa [endsWord] using hc)] at hbegins
        cases hbegins
      rw [Keyword.standsAt, ← hdrop, hoccurs.outside, hbegins, behind_eq, Option.or_none, hbefore,
        hbehind, Scan.isTop_of_isPlain (isPlain_of_isNameChar hname)]
      rfl

theorem not_standsAt_of_absent {scan : Scan} {before : Option Char} {text rest : List Char}
    (habsent : keyword.absent scan before rest text = true) {i : Nat} (hi : i < text.length) :
    keyword.standsAt (scan.after (text.take i)) (Keyword.behind before (text.take i))
      (text.drop i ++ rest) = false := by
  induction text generalizing scan before i with
  | nil => exact absurd hi (Nat.not_lt_zero i)
  | cons c tail ih =>
      rw [absent, Bool.and_eq_true, Bool.not_eq_true'] at habsent
      cases i with
      | zero => exact habsent.1
      | succ i => exact ih habsent.2 (Nat.lt_of_succ_lt_succ hi)

theorem not_occursAt_of_absent {front rest : List Char}
    (habsent : keyword.absent Scan.start none rest front = true) {i : Nat}
    (hi : i < front.length) : ¬keyword.OccursAt (front ++ rest) i := by
  intro hoccurs
  have hstands := hoccurs.standsAt
  rw [scanAt, List.take_append_of_le_length hi.le, List.drop_append_of_le_length hi.le,
    not_standsAt_of_absent habsent hi] at hstands
  cases hstands

theorem length_pos (keyword : Keyword) : 0 < keyword.text.length := by
  cases keyword <;> decide

theorem OccursAt.lt_length {text : List Char} {i : Nat} (hoccurs : keyword.OccursAt text i) :
    i < text.length := by
  have hlength := congrArg List.length hoccurs.letters
  rw [List.length_map, List.length_take, List.length_drop] at hlength
  have hpositive := length_pos keyword
  omega

theorem not_occursAt_of_absent_nil {text : List Char}
    (habsent : keyword.absent Scan.start none [] text = true) (i : Nat) :
    ¬keyword.OccursAt text i := by
  intro hoccurs
  have hnot := not_occursAt_of_absent habsent hoccurs.lt_length
  rw [List.append_nil] at hnot
  exact hnot hoccurs

/-- Behind what leaves nothing open, a text has the occurrences of what follows there, since no
word goes on over the border. -/
theorem occursAt_append_iff {front rest : List Char} (hfront : Scan.start.after front = Scan.start)
    (hrest : endsWord rest = true) (i : Nat) :
    keyword.OccursAt (front ++ rest) (front.length + i) ↔ keyword.OccursAt rest i := by
  have hscan : scanAt (front ++ rest) (front.length + i) = scanAt rest i := by
    rw [scanAt_append, hfront, scanAt]
  have hdrop : (front ++ rest).drop (front.length + i) = rest.drop i :=
    List.drop_length_add_append i
  have hbehind : (front ++ rest).drop (front.length + i + keyword.text.length) =
      rest.drop (i + keyword.text.length) := by
    rw [Nat.add_assoc, List.drop_length_add_append]
  have hlast : ((front ++ rest).take (front.length + i)).getLast? =
      (rest.take i).getLast?.or front.getLast? := by
    rw [List.take_length_add_append, List.getLast?_append]
  constructor
  · intro hoccurs
    refine ⟨hdrop ▸ hoccurs.letters, hscan ▸ hoccurs.outside, fun c hc => ?_,
      hbehind ▸ hoccurs.behind⟩
    apply hoccurs.before
    rw [hlast, Option.mem_def.mp hc]
    rfl
  · intro hoccurs
    refine ⟨hdrop.symm ▸ hoccurs.letters, hscan.trans hoccurs.outside, fun c hc => ?_,
      hbehind.symm ▸ hoccurs.behind⟩
    rw [hlast] at hc
    cases hbefore : (rest.take i).getLast? with
    | some d =>
        rw [hbefore] at hc
        exact hoccurs.before c (hbefore.trans hc)
    | none =>
        -- The keyword would begin at the border.
        have hall := List.take_append_drop i rest
        rw [List.getLast?_eq_none_iff.mp hbefore, List.nil_append] at hall
        have hletters : beginsWith keyword.text rest = true := by
          rw [beginsWith, decide_eq_true_eq, ← hall]
          exact hoccurs.letters
        rw [not_beginsWith_of_endsWord hrest] at hletters
        cases hletters

/-- The letters of a keyword are part of a word, and they leave nothing open. -/
theorem letters_of_beginsWith {text : List Char} (hbegins : beginsWith keyword.text text = true) :
    (text.take keyword.text.length).length = keyword.text.length ∧
      Scan.start.after (text.take keyword.text.length) = Scan.start ∧
      ∀ c ∈ text.take keyword.text.length, isNameChar c = true := by
  refine ⟨?_, Scan.after_word rfl _ keyword.text_all_isNameChar hbegins, fun c hc => ?_⟩ <;>
    rw [beginsWith, decide_eq_true_eq] at hbegins
  · rw [← List.length_map Char.toUpper, hbegins]
  · rw [← isNameChar_toUpper]
    exact List.all_eq_true.mp keyword.text_all_isNameChar _ (hbegins ▸ List.mem_map_of_mem hc)

theorem isFirst_of_standsAt {before : Option Char} {front later : List Char}
    (hbefore : before.any isNameChar = false ∨ endsWord front = true)
    (habsent : keyword.absent Scan.start before later front = true)
    (hstands : keyword.standsAt (Scan.start.after front) (Keyword.behind before front) later =
      true) :
    IsFirst keyword.text.length keyword.OccursAt front (later.take keyword.text.length)
      (later.drop keyword.text.length) := by
  have hhere := occursAt_of_standsAt hstands
  have hscan := eq_start_of_standsAt hstands
  have hletters := hhere.letters
  have hlast := hhere.before
  have hends := endsWord_iff.mpr hhere.behind
  rw [List.drop_left] at hletters
  rw [List.take_left] at hlast
  rw [List.drop_length_add_append] at hends
  obtain ⟨hwidth, hword, hname⟩ := letters_of_beginsWith (decide_eq_true_eq.mpr hletters)
  have hnone : keyword.absent Scan.start none later front = true := absent_before habsent hbefore
  have hwhole : front ++ later.take keyword.text.length ++ later.drop keyword.text.length =
      front ++ later := by
    rw [List.append_assoc, List.take_append_drop]
  constructor
  · exact hwidth
  · exact hscan
  · exact hword
  · exact not_occursAt_of_absent_nil
      (absent_rest hnone rfl (.inr (any_getLast?_iff.mpr hlast)))
  · rw [hwhole]
    exact fun i hi => not_occursAt_of_absent hnone hi
  · rw [hwhole]
    exact hhere
  · -- Before a place inside the keyword there is one of its letters.
    intro i hi hpositive hinside
    have hne : (later.take keyword.text.length).take i ≠ [] := by
      rw [← List.length_pos_iff, List.length_take, hwidth]
      omega
    have hbetween := hinside.before (((later.take keyword.text.length).take i).getLast hne) (by
      rw [List.append_assoc, List.take_length_add_append,
        List.take_append_of_le_length (by omega), List.getLast?_append,
        List.getLast?_eq_getLast_of_ne_nil hne]
      rfl)
    rw [hname _ (List.mem_of_mem_take (List.getLast_mem hne))] at hbetween
    cases hbetween
  · intro i
    have hpassed : Scan.start.after (front ++ later.take keyword.text.length) = Scan.start := by
      rw [Scan.after_append, hscan, hword]
    have hlength : (front ++ later.take keyword.text.length).length =
        front.length + keyword.text.length := by
      rw [List.length_append, hwidth]
    rw [← hlength]
    exact occursAt_append_iff hpassed hends i

/-- What is cut at a keyword is cut exactly where it occurs. -/
theorem parted_splitFrom {before : Option Char} {text : List Char}
    (hbefore : before.any isNameChar = false ∨ endsWord text = true) :
    Parted keyword.text.length keyword.OccursAt text
      (keyword.splitFrom 0 Scan.start before [] text) := by
  induction hlength : text.length using Nat.strong_induction_on generalizing before text with
  | _ length ih =>
  subst hlength
  cases habsent : keyword.absent Scan.start before [] text with
  | true =>
      have hsplit := splitFrom_of_absent [] habsent
      rw [List.append_nil, List.append_nil, splitFrom, List.reverse_reverse] at hsplit
      rw [hsplit]
      exact .whole (not_occursAt_of_absent_nil (absent_before habsent hbefore))
  | false =>
      obtain ⟨front, later, rfl, hfront, hstands⟩ := exists_of_not_absent habsent
      have hfirst := isFirst_of_standsAt (hbefore.imp_right endsWord_of_append) hfront hstands
      have hends := endsWord_iff.mpr (occursAt_of_standsAt hstands).behind
      rw [List.drop_length_add_append] at hends
      have hsplit := splitFrom_of_absent [] hfront
      rw [hfirst.top] at hsplit hstands
      rw [List.append_nil, splitFrom_standsAt _ hstands, List.reverse_reverse] at hsplit
      have hshorter : (later.drop keyword.text.length).length < (front ++ later).length := by
        have hwidth := hfirst.length_eq
        have hpositive := length_pos keyword
        rw [List.length_take] at hwidth
        rw [List.length_append, List.length_drop]
        omega
      have hwhole : front ++ later =
          front ++ later.take keyword.text.length ++ later.drop keyword.text.length := by
        rw [List.append_assoc, List.take_append_drop]
      rw [hsplit, hwhole]
      exact .cut hfirst (ih _ hshorter (.inr hends) rfl)

end Keyword

/-! ## Commas -/

structure CommaAt (text : List Char) (i : Nat) : Prop where
  comma : text[i]? = some ','
  outside : scanAt text i = Scan.start

theorem Scan.isTop_comma_iff {scan : Scan} : scan.isTop ',' = true ↔ scan = Scan.start := by
  obtain ⟨quote, depth⟩ := scan
  rw [Scan.isTop_of_isPlain (by decide)]
  simp [Scan.start]

theorem commaAt_append_iff {front rest : List Char} (hfront : Scan.start.after front = Scan.start)
    (i : Nat) : CommaAt (front ++ rest) (front.length + i) ↔ CommaAt rest i := by
  have hscan : scanAt (front ++ rest) (front.length + i) = scanAt rest i := by
    rw [scanAt_append, hfront, scanAt]
  have hchar : (front ++ rest)[front.length + i]? = rest[i]? := by
    rw [List.getElem?_append_right (Nat.le_add_right _ _), Nat.add_sub_cancel_left]
  constructor
  · exact fun hcomma => ⟨hchar ▸ hcomma.comma, hscan ▸ hcomma.outside⟩
  · exact fun hcomma => ⟨hchar.trans hcomma.comma, hscan.trans hcomma.outside⟩

theorem not_commaAt_of_everyTop {front : List Char} (rest : List Char)
    (hfront : Scan.start.everyTop (· ≠ ',') front = true) {i : Nat} (hi : i < front.length) :
    ¬CommaAt (front ++ rest) i := by
  intro hcomma
  have hchar := hcomma.comma
  have hscan := hcomma.outside
  rw [List.getElem?_append_left hi] at hchar
  rw [scanAt_append_of_le hi.le, scanAt] at hscan
  have hsplit : front = front.take i ++ ',' :: front.drop (i + 1) := by
    rw [List.getElem?_eq_getElem hi, Option.some.injEq] at hchar
    rw [← hchar, ← List.drop_eq_getElem_cons hi, List.take_append_drop]
  have htop : Scan.start.isTop ',' = true := by decide
  rw [hsplit, Scan.everyTop_append, hscan, Scan.everyTop] at hfront
  simp [htop] at hfront

theorem not_commaAt_of_everyTop_self {text : List Char}
    (htext : Scan.start.everyTop (· ≠ ',') text = true) (i : Nat) : ¬CommaAt text i := by
  intro hcomma
  obtain ⟨hi, -⟩ := List.getElem?_eq_some_iff.mp hcomma.comma
  have hnot := not_commaAt_of_everyTop [] htext hi
  rw [List.append_nil] at hnot
  exact hnot hcomma

/-- Where some character at the top lacks a property, there is a first one. -/
theorem Scan.exists_of_not_everyTop {p : Char → Bool} {scan : Scan} {text : List Char}
    (htext : scan.everyTop p text = false) :
    ∃ front c later, text = front ++ c :: later ∧ scan.everyTop p front = true ∧
      (scan.after front).isTop c = true ∧ p c = false := by
  induction text generalizing scan with
  | nil => cases htext
  | cons c tail ih =>
      cases hhead : !scan.isTop c || p c with
      | false =>
          rw [Bool.or_eq_false_iff, Bool.not_eq_false'] at hhead
          exact ⟨[], c, tail, rfl, rfl, hhead⟩
      | true =>
          rw [Scan.everyTop, hhead, Bool.true_and] at htext
          obtain ⟨front, d, later, rfl, hfront, hlater⟩ := ih htext
          refine ⟨c :: front, d, later, rfl, ?_, hlater⟩
          rw [Scan.everyTop, hhead, hfront]
          rfl

theorem splitCommas_of_first {front : List Char} (later : List Char)
    (hfront : Scan.start.everyTop (· ≠ ',') front = true)
    (hscan : Scan.start.after front = Scan.start) :
    splitCommas (front ++ ',' :: later) = front :: splitCommas later := by
  have htop : Scan.start.isTop ',' = true := by decide
  have hstep : Scan.start.step ',' = Scan.start := by decide
  rw [splitCommas, splitCommasFrom_of_topAll [] _ hfront, hscan, splitCommasFrom]
  simp [htop, hstep, splitCommas]

theorem isFirst_comma {front : List Char} (later : List Char)
    (hfront : Scan.start.everyTop (· ≠ ',') front = true)
    (hscan : Scan.start.after front = Scan.start) : IsFirst 1 CommaAt front [','] later where
  length_eq := rfl
  top := hscan
  passed := by decide
  none := not_commaAt_of_everyTop_self hfront
  before i hi := by
    rw [List.append_assoc]
    exact not_commaAt_of_everyTop _ hfront hi
  here := by
    constructor
    · simp
    · rw [List.append_assoc, scanAt, List.take_left, hscan]
  inside i hi hpositive := absurd hi (Nat.not_lt.mpr hpositive)
  behind i := by
    have hpassed : Scan.start.after (front ++ [',']) = Scan.start := by
      rw [Scan.after_append, hscan]
      decide
    have hlength : (front ++ [',']).length = front.length + 1 := List.length_append
    rw [← hlength]
    exact commaAt_append_iff hpassed i

/-- What is cut at commas is cut exactly where one is at the top. -/
theorem parted_splitCommas (text : List Char) : Parted 1 CommaAt text (splitCommas text) := by
  induction hlength : text.length using Nat.strong_induction_on generalizing text with
  | _ length ih =>
  subst hlength
  cases htop : Scan.start.everyTop (· ≠ ',') text with
  | true =>
      have hsplit := splitCommasFrom_of_topAll [] [] htop
      rw [List.append_nil, List.append_nil, splitCommasFrom, List.reverse_reverse] at hsplit
      rw [splitCommas, hsplit]
      exact .whole (not_commaAt_of_everyTop_self htop)
  | false =>
      obtain ⟨front, c, later, rfl, hfront, hstands, hc⟩ := Scan.exists_of_not_everyTop htop
      obtain rfl : c = ',' := by simpa using hc
      have hscan := Scan.isTop_comma_iff.mp hstands
      rw [splitCommas_of_first later hfront hscan, List.append_cons]
      exact .cut (isFirst_comma later hfront hscan) (ih _ (by simp; omega) later rfl)

/-- Splitting at a keyword or at commas loses nothing and misses nothing: the parts with what was
between them make the text, the cuts are the occurrences at its top, a part is scanned on its own
as it is in the text, and it is not split any further. -/
theorem splits_keywords_and_commas (text : List Char) :
    (∀ keyword : Keyword, Splits keyword.text.length keyword.OccursAt keyword.split text) ∧
      Splits 1 CommaAt splitCommas text :=
  ⟨fun _ => .of_parted (fun _ => Keyword.parted_splitFrom (.inl rfl)) text,
    .of_parted parted_splitCommas text⟩

end Condition
end Rulebook
