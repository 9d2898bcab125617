import Rulebook.Proofs.Condition.Spacing

/-!
# What is cut at a keyword has no keyword left

A text is cut at every place where a keyword stands, so the keyword stands nowhere in the pieces.
This has to be proved, because a piece has other neighbours than the text around it: an end of a
piece could make a word out of what was part of a longer one.  But a cut is made only between a word
and what is not part of a word, and so are all other cuts.  Hence a text in which a keyword stands
nowhere has only such pieces, and what is handed down to the operands of a condition is free of both
keywords.
-/

namespace Rulebook
namespace Condition

open Text

namespace Keyword

variable {keyword : Keyword}

theorem behind_append (before : Option Char) (front back : List Char) :
    behind before (front ++ back) = behind (behind before front) back :=
  List.foldl_append

theorem behind_eq (before : Option Char) (text : List Char) :
    behind before text = text.getLast?.or before := by
  induction text using List.reverseRecOn with
  | nil => rfl
  | append_singleton front c ih => simp [behind]

/-! ## Neighbours -/

/-- In front of what is no part of a word, letters end no later than the text. -/
theorem length_le_of_beginsWith {letters text rest : List Char}
    (hletters : letters.all isNameChar = true) (hrest : endsWord rest = true)
    (hbegins : beginsWith letters (text ++ rest) = true) : letters.length ≤ text.length := by
  rw [beginsWith, decide_eq_true_eq] at hbegins
  by_contra hshort
  cases rest with
  | nil =>
      have hlength := congrArg List.length hbegins
      simp at hlength
      omega
  | cons d tail =>
      have hd : d.toUpper ∈ letters := by
        obtain ⟨more, hmore⟩ : ∃ more, letters.length - text.length = more + 1 :=
          ⟨letters.length - text.length - 1, by omega⟩
        rw [← hbegins, List.take_append, List.map_append, hmore, List.take_succ_cons,
          List.map_cons]
        exact List.mem_append_right _ List.mem_cons_self
      have hname := List.all_eq_true.mp hletters _ hd
      rw [isNameChar_toUpper] at hname
      simp [endsWord, hname] at hrest

/-- Whether a keyword stands at the front of a text does not depend on what follows, unless it
would be part of the word at the end. -/
theorem standsAt_rest {scan : Scan} {before : Option Char} {text rest other : List Char}
    (hne : text ≠ []) (hother : endsWord other = true)
    (hends : endsWord rest = true ∨ text.getLast?.any isNameChar = false)
    (hstands : keyword.standsAt scan before (text ++ other) = true) :
    keyword.standsAt scan before (text ++ rest) = true := by
  obtain ⟨c, tail, rfl⟩ := List.exists_cons_of_ne_nil hne
  rw [List.cons_append, standsAt, ← List.cons_append] at hstands ⊢
  simp only [Bool.and_eq_true] at hstands ⊢
  obtain ⟨⟨⟨htop, hbegins⟩, hbefore⟩, hbehind⟩ := hstands
  have hlength := length_le_of_beginsWith keyword.text_all_isNameChar hother hbegins
  have hletters : ((c :: tail).take keyword.text.length).map Char.toUpper = keyword.text := by
    rw [beginsWith, decide_eq_true_eq, List.take_append_of_le_length hlength] at hbegins
    exact hbegins
  refine ⟨⟨⟨htop, ?_⟩, hbefore⟩, ?_⟩
  · rw [beginsWith, decide_eq_true_eq, List.take_append_of_le_length hlength]
    exact hletters
  · rw [List.drop_append_of_le_length hlength] at hbehind ⊢
    cases hdrop : (c :: tail).drop keyword.text.length with
    | cons d more =>
        rw [hdrop] at hbehind
        exact hbehind
    | nil =>
        -- The text is the keyword, and so it ends in a letter.
        rw [List.take_of_length_le (List.drop_eq_nil_iff.mp hdrop)] at hletters
        have hlast : ((c :: tail).getLast (List.cons_ne_nil c tail)).toUpper ∈ keyword.text :=
          hletters ▸ List.mem_map_of_mem (List.getLast_mem _)
        have hname := List.all_eq_true.mp keyword.text_all_isNameChar _ hlast
        rw [isNameChar_toUpper] at hname
        rcases hends with hrest | hnone
        · exact hrest
        · simp [List.getLast?_eq_getLast_of_ne_nil, hname] at hnone

section Absence

variable {scan : Scan} {before other : Option Char} {text rest : List Char}

theorem absent_before (habsent : keyword.absent scan before rest text = true)
    (hword : before.any isNameChar = false ∨ endsWord text = true) :
    keyword.absent scan other rest text = true := by
  cases text with
  | nil => rfl
  | cons c tail =>
      rw [absent, Bool.and_eq_true, Bool.not_eq_true'] at habsent ⊢
      refine ⟨?_, habsent.2⟩
      rcases hword with hbefore | hends
      · have hstands := habsent.1
        rw [List.cons_append, standsAt, hbefore] at hstands
        rw [List.cons_append, standsAt]
        simp only [Bool.not_false, Bool.and_true] at hstands
        grind
      · exact standsAt_of_not_isNameChar (by simpa [endsWord] using hends) scan other _

theorem absent_rest {later : List Char} (habsent : keyword.absent scan before rest text = true)
    (hlater : endsWord later = true)
    (hends : endsWord rest = true ∨ text.getLast?.any isNameChar = false) :
    keyword.absent scan before later text = true := by
  induction text generalizing scan before with
  | nil => rfl
  | cons c tail ih =>
      rw [absent, Bool.and_eq_true, Bool.not_eq_true'] at habsent ⊢
      constructor
      · by_contra hstands
        rw [Bool.not_eq_false] at hstands
        have hsame := standsAt_rest (List.cons_ne_nil c tail) hlater hends hstands
        rw [habsent.1] at hsame
        cases hsame
      · cases tail with
        | nil => rfl
        | cons d more =>
            rw [List.getLast?_cons_cons] at hends
            exact ih habsent.2 hends

/-- A text at the top is free of a keyword that stands nowhere in it, if it ends where words do. -/
theorem free_of_absent (habsent : keyword.absent Scan.start before rest text = true)
    (hword : before.any isNameChar = false ∨ endsWord text = true)
    (hends : endsWord rest = true ∨ text.getLast?.any isNameChar = false) :
    keyword.Free text :=
  fun _ _ _ hlater => absent_rest (absent_before habsent hword) hlater hends

end Absence

/-- A piece of a text, from its top, that is not cut out of a word. -/
theorem Free.slice {front piece back : List Char} (hfree : keyword.Free (front ++ piece ++ back))
    (hfront : Scan.start.after front = Scan.start)
    (hword : front.getLast?.any isNameChar = false ∨ endsWord piece = true)
    (hends : endsWord back = true ∨ piece.getLast?.any isNameChar = false) :
    keyword.Free piece := by
  have habsent := hfree none [] rfl rfl
  rw [← Scan.start_eq_unquoted, List.append_assoc, absent_append, absent_append, hfront,
    behind_eq, Option.or_none, List.append_nil back] at habsent
  simp only [Bool.and_eq_true] at habsent
  exact free_of_absent habsent.2.1 hword hends

/-! ## Pieces between keywords -/

theorem exists_of_not_absent {scan : Scan} {before : Option Char} {text : List Char}
    (hpresent : keyword.absent scan before [] text = false) :
    ∃ front later, text = front ++ later ∧ keyword.absent scan before later front = true ∧
      keyword.standsAt (scan.after front) (behind before front) later = true := by
  induction text generalizing scan before with
  | nil => cases hpresent
  | cons c tail ih =>
      cases hstands : keyword.standsAt scan before (c :: tail) with
      | true => exact ⟨[], c :: tail, rfl, rfl, hstands⟩
      | false =>
          rw [absent, List.append_nil, hstands] at hpresent
          obtain ⟨front, later, rfl, habsent, hlater⟩ := ih hpresent
          refine ⟨c :: front, later, rfl, ?_, hlater⟩
          rw [absent, habsent, List.cons_append, hstands]
          rfl

theorem eq_start_of_standsAt {scan : Scan} {before : Option Char} {text : List Char}
    (hstands : keyword.standsAt scan before text = true) : scan = Scan.start := by
  cases text with
  | nil => cases hstands
  | cons c rest =>
      have hname : isNameChar c = true := by
        by_contra hc
        rw [Bool.not_eq_true] at hc
        rw [standsAt_of_not_isNameChar hc] at hstands
        cases hstands
      simp only [standsAt, Bool.and_eq_true] at hstands
      have htop := hstands.1.1.1
      rw [Scan.isTop_of_isPlain (isPlain_of_isNameChar hname), Bool.and_eq_true,
        Option.isNone_iff_eq_none, decide_eq_true_eq] at htop
      obtain ⟨quote, depth⟩ := scan
      obtain ⟨rfl, rfl⟩ := htop
      rfl

theorem ne_nil_of_standsAt {scan : Scan} {before : Option Char} {text : List Char}
    (hstands : keyword.standsAt scan before text = true) : text ≠ [] := by
  rintro rfl
  cases hstands

theorem splitFrom_skip (skip : Nat) (scan : Scan) (before : Option Char) (part text : List Char) :
    keyword.splitFrom skip scan before part text =
      keyword.splitFrom 0 (scan.after (text.take skip)) (behind before (text.take skip)) part
        (text.drop skip) := by
  induction text generalizing skip scan before with
  | nil => cases skip <;> rfl
  | cons c rest ih =>
      cases skip with
      | zero => rfl
      | succ skip => exact ih skip (scan.step c) (some c)

/-- At a keyword the current part ends, and the next one begins behind it. -/
theorem splitFrom_standsAt {before : Option Char} {text : List Char} (part : List Char)
    (hstands : keyword.standsAt Scan.start before text = true) :
    keyword.splitFrom 0 Scan.start before part text =
      part.reverse :: keyword.splitFrom 0 Scan.start
        (behind before (text.take keyword.text.length)) [] (text.drop keyword.text.length) := by
  cases text with
  | nil => cases hstands
  | cons c rest =>
      have hplace := hstands
      simp only [standsAt, Bool.and_eq_true] at hplace
      have hscan : Scan.start.after ((c :: rest).take keyword.text.length) = Scan.start :=
        Scan.after_word rfl _ keyword.text_all_isNameChar hplace.1.1.2
      obtain ⟨length, hlength⟩ : ∃ length, keyword.text.length = length + 1 := by
        cases keyword <;> exact ⟨_, rfl⟩
      rw [hlength, List.take_succ_cons, Scan.after_cons] at hscan
      rw [splitFrom]
      simp only [hstands, if_true]
      rw [hlength, Nat.add_sub_cancel, splitFrom_skip, hscan]
      rfl

theorem splitFrom_ne_nil {skip : Nat} {scan : Scan} {before : Option Char} {part text : List Char} :
    keyword.splitFrom skip scan before part text ≠ [] := by
  induction text generalizing skip scan before part with
  | nil => exact List.cons_ne_nil _ _
  | cons c rest ih =>
      cases skip with
      | succ skip => exact ih
      | zero =>
          rw [splitFrom]
          split
          · exact List.cons_ne_nil _ _
          · exact ih

/-- A piece of a text that is split at a keyword: neither end of it is inside a word, and the
keyword stands nowhere in it. -/
structure IsPiece (keyword : Keyword) (before : Option Char) (front piece back : List Char) :
    Prop where
  top : Scan.start.after front = Scan.start
  begins : (behind before front).any isNameChar = false ∨ endsWord piece = true
  ends : endsWord back = true ∨ piece.getLast?.any isNameChar = false
  absent : keyword.absent Scan.start (behind before front) back piece = true

theorem endsWord_of_append {front back : List Char} (hends : endsWord (front ++ back) = true) :
    endsWord front = true := by
  cases front with
  | nil => rfl
  | cons c rest => exact hends

/-- A piece of a text is a piece of it when more text stands before. -/
theorem IsPiece.further {before : Option Char} {front between piece back : List Char}
    (hpiece : keyword.IsPiece (behind before front) between piece back)
    (hfront : Scan.start.after front = Scan.start) :
    keyword.IsPiece before (front ++ between) piece back where
  top := by rw [Scan.after_append, hfront, hpiece.top]
  begins := by
    rw [behind_append]
    exact hpiece.begins
  ends := hpiece.ends
  absent := by
    rw [behind_append]
    exact hpiece.absent

theorem exists_isPiece_of_mem_splitFrom {before : Option Char} {text piece : List Char}
    (hbefore : before.any isNameChar = false ∨ endsWord text = true)
    (hpiece : piece ∈ keyword.splitFrom 0 Scan.start before [] text) :
    ∃ front back, text = front ++ piece ++ back ∧ keyword.IsPiece before front piece back := by
  induction hlength : text.length using Nat.strong_induction_on generalizing before text with
  | _ length ih =>
  subst hlength
  cases habsent : keyword.absent Scan.start before [] text with
  | true =>
      have hsplit := splitFrom_of_absent [] habsent
      rw [List.append_nil, List.append_nil, splitFrom, List.reverse_reverse] at hsplit
      rw [hsplit, List.mem_singleton] at hpiece
      subst hpiece
      exact ⟨[], [], by simp, rfl, hbefore, .inl rfl, habsent⟩
  | false =>
      obtain ⟨front, later, rfl, hfront, hstands⟩ := exists_of_not_absent habsent
      have hscan := eq_start_of_standsAt hstands
      rw [hscan] at hstands
      have hsplit := splitFrom_of_absent [] hfront
      rw [hscan, List.append_nil, splitFrom_standsAt _ hstands, List.reverse_reverse] at hsplit
      have hplace := hstands
      obtain ⟨c, rest, rfl⟩ := List.exists_cons_of_ne_nil (ne_nil_of_standsAt hstands)
      simp only [standsAt, Bool.and_eq_true, Bool.not_eq_true'] at hplace
      obtain ⟨⟨⟨-, hbegins⟩, hword⟩, hends⟩ := hplace
      rw [hsplit, List.mem_cons] at hpiece
      -- The first piece ends at the keyword, and the others are pieces of what stands behind it.
      rcases hpiece with rfl | hpiece
      · refine ⟨[], c :: rest, rfl, rfl, hbefore.imp_right endsWord_of_append, .inr ?_, hfront⟩
        rw [behind_eq] at hword
        cases hlast : piece.getLast? with
        | none => rfl
        | some d => rwa [hlast] at hword
      · have hletters : 0 < keyword.text.length := by
          cases keyword <;> decide
        have hshorter : ((c :: rest).drop keyword.text.length).length <
            (front ++ c :: rest).length := by
          simp only [List.length_drop, List.length_append, List.length_cons]
          omega
        obtain ⟨between, back, hbetween, hinside⟩ := ih _ hshorter (.inr hends) hpiece rfl
        have hword : Scan.start.after ((c :: rest).take keyword.text.length) = Scan.start :=
          Scan.after_word rfl _ keyword.text_all_isNameChar hbegins
        refine ⟨_, back, ?_, (hinside.further hword).further hscan⟩
        rw [List.append_assoc, List.append_assoc, List.append_assoc, ← List.append_assoc between,
          ← hbetween, List.take_append_drop]

/-- A keyword at which a text is split stands nowhere in the pieces. -/
theorem free_of_mem_split {text piece : List Char} (hpiece : piece ∈ keyword.split text) :
    keyword.Free piece := by
  obtain ⟨front, back, -, hplace⟩ := exists_isPiece_of_mem_splitFrom (.inl rfl) hpiece
  exact free_of_absent hplace.absent hplace.begins hplace.ends

/-- Splitting at one keyword brings no other one about. -/
theorem Free.of_mem_split {other : Keyword} {text piece : List Char} (hfree : other.Free text)
    (hpiece : piece ∈ keyword.split text) : other.Free piece := by
  obtain ⟨front, back, rfl, hplace⟩ := exists_isPiece_of_mem_splitFrom (.inl rfl) hpiece
  have hbegins := hplace.begins
  rw [behind_eq, Option.or_none] at hbegins
  exact hfree.slice hplace.top hbegins hplace.ends

theorem free_of_split {text piece : List Char} (hsplit : keyword.split text = [piece]) :
    keyword.Free text := by
  cases habsent : keyword.absent Scan.start none [] text with
  | true => exact free_of_absent habsent (.inl rfl) (.inl rfl)
  | false =>
      obtain ⟨front, later, rfl, hfront, hstands⟩ := exists_of_not_absent habsent
      have hscan := eq_start_of_standsAt hstands
      rw [hscan] at hstands
      have hparts := splitFrom_of_absent [] hfront
      rw [hscan, splitFrom_standsAt _ hstands] at hparts
      rw [split, hparts] at hsplit
      exact absurd (List.cons.inj hsplit).2 splitFrom_ne_nil

/-! ## Other cuts -/

theorem Free.strip {text : List Char} (hfree : keyword.Free text) : keyword.Free (strip text) := by
  have hblank : ∀ text : List Char, ∀ c ∈ text.takeWhile isBlank, isBlank c = true :=
    fun text c hc => List.mem_takeWhile_imp hc
  have hfront : keyword.Free (text.dropWhile isBlank) := by
    have hsplit : text = text.takeWhile isBlank ++ text.dropWhile isBlank ++ [] := by
      rw [List.append_nil, List.takeWhile_append_dropWhile]
    rw [hsplit] at hfree
    refine hfree.slice ?_ (.inl ?_) (.inl rfl)
    · apply Scan.after_of_isPlain
      rw [List.all_eq_true]
      exact fun c hc => (not_of_isBlank (hblank text c hc)).2.1
    · cases hlast : (text.takeWhile isBlank).getLast? with
      | none => rfl
      | some c => exact (not_of_isBlank (hblank text c (List.mem_of_getLast? hlast))).1
  unfold Text.strip
  generalize text.dropWhile isBlank = core at hfront
  have hsplit : core = [] ++ (core.reverse.dropWhile isBlank).reverse ++
      (core.reverse.takeWhile isBlank).reverse := by
    rw [List.nil_append, ← List.reverse_append, List.takeWhile_append_dropWhile,
      List.reverse_reverse]
  rw [hsplit] at hfront
  refine hfront.slice rfl (.inl rfl) (.inl ?_)
  cases hback : (core.reverse.takeWhile isBlank).reverse with
  | nil => rfl
  | cons c rest =>
      have hc : c ∈ core.reverse.takeWhile isBlank :=
        List.mem_reverse.mp (hback ▸ List.mem_cons_self)
      simp [endsWord, (not_of_isBlank (hblank _ c hc)).1]

theorem Free.behind_not {text : List Char} (hfree : keyword.Free text)
    (hnot : beginsNot text = true) : keyword.Free (text.drop 3) := by
  obtain ⟨hbegins, hends⟩ := beginsWith_of_beginsNot hnot
  have hsplit : text = text.take 3 ++ text.drop 3 ++ [] := by
    rw [List.append_nil, List.take_append_drop]
  rw [hsplit] at hfree
  have hscan : Scan.start.after _ = Scan.start :=
    Scan.after_word rfl ['N', 'O', 'T'] (by decide) hbegins
  exact hfree.slice hscan (.inr hends) (.inl rfl)

/-- The sides of a comparison meet its symbol, which is no part of a word. -/
theorem exists_of_cutSymbolFrom {symbol text left right : List Char} (front : List Char)
    {scan : Scan} (hsymbol : IsSymbol symbol) (hscan : Scan.start.after front.reverse = scan)
    (hcut : cutSymbolFrom symbol scan front text = some (left, right)) :
    front.reverse ++ text = left ++ symbol ++ right ∧ Scan.start.after left = Scan.start := by
  induction text generalizing scan front with
  | nil => cases hcut
  | cons c rest ih =>
      rw [cutSymbolFrom] at hcut
      split_ifs at hcut with hstands
      · cases hcut
        simp only [symbolStands, Bool.and_eq_true] at hstands
        obtain ⟨htop, hbegins, -⟩ := hstands
        obtain ⟨right, hright⟩ := List.isPrefixOf_iff_prefix.mp hbegins
        obtain ⟨d, more, rfl⟩ := List.exists_cons_of_ne_nil hsymbol.ne_nil
        have hplain := (not_of_isComparisonChar
          (List.all_eq_true.mp hsymbol.chars d List.mem_cons_self)).2.2
        obtain rfl : d = c := (List.cons.inj hright).1
        rw [← hright, List.drop_left, hscan, List.append_assoc]
        refine ⟨rfl, ?_⟩
        rw [Scan.isTop_of_isPlain hplain, Bool.and_eq_true, Option.isNone_iff_eq_none,
          decide_eq_true_eq] at htop
        obtain ⟨quote, depth⟩ := scan
        obtain ⟨rfl, rfl⟩ := htop
        rfl
      · have hstep : Scan.start.after (c :: front).reverse = scan.step c := by
          rw [List.reverse_cons, Scan.after_append, hscan]
          rfl
        have hrest := ih (c :: front) hstep hcut
        rwa [List.reverse_cons, List.append_assoc] at hrest

theorem Free.of_comparison? {text left right : List Char} {operator : String}
    (hfree : keyword.Free text) (hcut : comparison? text = some (operator, left, right)) :
    keyword.Free left ∧ keyword.Free right := by
  obtain ⟨⟨symbol, name⟩, hmem, hfound⟩ := List.exists_of_findSome?_eq_some hcut
  obtain ⟨⟨front, back⟩, hsides, heq⟩ := Option.map_eq_some_iff.mp hfound
  cases heq
  have hsymbol := isSymbol_of_mem hmem
  obtain ⟨hsplit, hscan⟩ := exists_of_cutSymbolFrom [] hsymbol rfl hsides
  rw [List.reverse_nil, List.nil_append] at hsplit
  have hchar : ∀ c ∈ symbol, isNameChar c = false ∧ isPlain c = true := fun c hc =>
    (not_of_isComparisonChar (List.all_eq_true.mp hsymbol.chars c hc)).2
  have hplain : symbol.all isPlain = true := List.all_eq_true.mpr fun c hc => (hchar c hc).2
  constructor
  · have hleft : text = [] ++ left ++ (symbol ++ right) := by
      rw [hsplit, List.nil_append, List.append_assoc]
    rw [hleft] at hfree
    refine hfree.slice rfl (.inl rfl) (.inl ?_)
    obtain ⟨c, rest, rfl⟩ := List.exists_cons_of_ne_nil hsymbol.ne_nil
    simp [endsWord, (hchar c List.mem_cons_self).1]
  · rw [hsplit, ← List.append_nil (_ ++ right)] at hfree
    refine hfree.slice ?_ (.inl ?_) (.inl rfl)
    · rw [Scan.after_append, hscan, Scan.start_eq_unquoted, Scan.after_of_isPlain hplain]
    · rw [List.getLast?_append_of_ne_nil _ hsymbol.ne_nil]
      cases hlast : symbol.getLast? with
      | none => rfl
      | some c => exact (hchar c (List.mem_of_getLast? hlast)).1

/-- A call whose name is a keyword would have been cut there. -/
theorem Free.name_ne {text name arguments : List Char} (hfree : keyword.Free text)
    (hcall : call? text = some (name, arguments)) : name.map Char.toUpper ≠ keyword.text := by
  intro hname
  obtain ⟨rest, rfl, hcalled, hparen, -, -⟩ := exists_of_call? hcall
  have hword := isWord_of_isVariableName (isVariableName_of_isCallName hcalled)
  have habsent := hfree none [] rfl rfl
  rw [absent_append, List.append_nil, Bool.and_eq_true] at habsent
  obtain ⟨c, tail, rfl⟩ := List.exists_cons_of_ne_nil hword.ne_nil
  have hlength : (c :: tail).length = keyword.text.length := by
    rw [← hname, List.length_map]
  have hplain := isPlain_of_isNameChar (hword.isNameChar List.mem_cons_self)
  obtain ⟨after, rfl⟩ := List.head?_eq_some_iff.mp hparen
  have hstands : keyword.standsAt (Scan.unquoted 0) none (c :: tail ++ '(' :: after) = true := by
    rw [List.cons_append, standsAt, ← List.cons_append, Scan.isTop_of_isPlain hplain, beginsWith,
      ← hlength, List.take_left, List.drop_left, hname]
    simp [Scan.unquoted, endsWord, isNameChar, Text.isAlphanumeric]
  rw [absent, hstands] at habsent
  cases habsent.1

end Keyword
end Condition
end Rulebook
