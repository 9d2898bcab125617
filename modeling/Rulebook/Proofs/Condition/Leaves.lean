import Rulebook.Proofs.Condition.Spacing

/-!
# What numbers, constants and names are written with

Blanks, quotes and parentheses belong to no number, constant or name.  So an operand with one of
these in it is something else, or is rejected.
-/

namespace Rulebook
namespace Condition

open Text

/-- A blank, a quote or a parenthesis. -/
def isForeign (c : Char) : Bool :=
  isBlank c || !isPlain c

theorem not_of_isForeign {c : Char} (hc : isForeign c = true) :
    isNameChar c = false ∧ c.toLower = c ∧ digitValue? c = none := by
  rw [isForeign, Bool.or_eq_true] at hc
  rcases hc with hblank | hplain
  · obtain ⟨hname, -, -, hlower, -, -, hdigit⟩ := not_of_isBlank hblank
    exact ⟨hname, hlower, hdigit⟩
  · simp only [isPlain, isQuote, Bool.not_eq_true', Bool.and_eq_false_iff, Bool.not_eq_false',
      Bool.or_eq_true, decide_eq_true_eq, decide_eq_false_iff_not, not_not] at hplain
    rcases hplain with ((rfl | rfl) | rfl) | rfl <;> decide

theorem any_isForeign_of_isBlank {text : List Char} (htext : text.any isBlank = true) :
    text.any isForeign = true := by
  obtain ⟨c, hmem, hc⟩ := List.any_eq_true.mp htext
  exact List.any_eq_true.mpr ⟨c, hmem, by rw [isForeign, hc, Bool.true_or]⟩

/-! ## No number, constant or name -/

variable {text : List Char}

theorem digits?_eq_none (htext : text.any isForeign = true) : digits? text = none := by
  have hdigit : ∀ {c : Char}, isForeign c = true → digitValue? c = none :=
    fun hc => (not_of_isForeign hc).2.2
  fun_induction digits? text with
  | case1 => rfl
  | case2 c =>
      rw [List.any_cons, List.any_nil, Bool.or_false] at htext
      rw [hdigit htext]
      rfl
  | case3 c rest ih =>
      rw [List.any_cons, List.any_cons, show isForeign '_' = false by decide, Bool.false_or,
        Bool.or_eq_true] at htext
      rcases htext with hc | hrest
      · rw [hdigit hc]
        rfl
      · rw [ih hrest]
        cases digitValue? c <;> rfl
  | case4 c rest _ _ ih =>
      rw [List.any_cons, Bool.or_eq_true] at htext
      rcases htext with hc | hrest
      · rw [hdigit hc]
        rfl
      · rw [ih hrest]
        cases digitValue? c <;> rfl

theorem any_isForeign_signed (text : List Char) :
    (signed text).2.any isForeign = text.any isForeign := by
  unfold signed
  split <;> simp [show isForeign '-' = false by decide, show isForeign '+' = false by decide]

theorem whole?_eq_none (htext : text.any isForeign = true) : whole? text = none := by
  rw [← any_isForeign_signed] at htext
  simp only [whole?, digits?_eq_none htext, Option.map_none]

theorem side?_eq_none (htext : text.any isForeign = true) : side? text = none := by
  rw [side?, if_neg, digits?_eq_none htext]
  intro hempty
  rw [List.isEmpty_iff.mp hempty] at htext
  cases htext

/-- A cut leaves what is foreign to it on one of the two sides. -/
theorem any_isForeign_cut {isCut : Char → Bool} (hcut : ∀ c, isCut c = true → isForeign c = false)
    (htext : text.any isForeign = true) :
    (cut isCut text).1.any isForeign = true ∨
      ∃ back, (cut isCut text).2 = some back ∧ back.any isForeign = true := by
  rw [← List.takeWhile_append_dropWhile (p := fun c => !isCut c) (l := text), List.any_append,
    Bool.or_eq_true] at htext
  have hhead := List.head?_dropWhile_not (fun c => !isCut c) text
  unfold cut
  generalize text.dropWhile (fun c => !isCut c) = rest at htext hhead
  cases rest with
  | nil => exact htext.imp_right fun hnil => nomatch hnil
  | cons c back =>
      have hc : isCut c = true := by simpa using hhead
      rw [List.any_cons, hcut c hc, Bool.false_or] at htext
      exact htext.imp_right fun hback => ⟨back, rfl, hback⟩

theorem decimal?_eq_none (htext : text.any isForeign = true) : decimal? text = none := by
  have hexponent : ∀ c : Char, (c = 'e' || c = 'E') = true → isForeign c = false := by
    intro c hc
    rcases Bool.or_eq_true _ _ |>.mp hc with hc | hc <;> rw [decide_eq_true_eq.mp hc] <;> decide
  have hpoint : ∀ c : Char, decide (c = '.') = true → isForeign c = false := by
    intro c hc
    rw [decide_eq_true_eq.mp hc]
    decide
  rw [← any_isForeign_signed] at htext
  rcases any_isForeign_cut hexponent htext with hmantissa | ⟨back, hback, hforeign⟩
  · rcases any_isForeign_cut hpoint hmantissa with hfront | ⟨back, hback, hforeign⟩
    · simp only [decimal?, side?_eq_none hfront]
      split <;> simp
    · simp only [decimal?, hback, Option.getD_some, side?_eq_none hforeign]
      split <;> simp
  · simp only [decimal?, hback, whole?_eq_none hforeign]
    rfl

theorem number?_eq_none (htext : text.any isForeign = true) : number? text = none := by
  simp only [number?, decimal?_eq_none htext, whole?_eq_none htext, Option.map_none, ite_self]

theorem constant?_eq_none (htext : text.any isForeign = true) : constant? text = none := by
  obtain ⟨c, hmem, hc⟩ := List.any_eq_true.mp htext
  have hlower : c ∈ text.map Char.toLower :=
    List.mem_map.mpr ⟨c, hmem, (not_of_isForeign hc).2.1⟩
  have hword : ∀ word : String, word.toList.any isForeign = false →
      String.ofList (text.map Char.toLower) ≠ word := by
    rintro word hword rfl
    rw [String.toList_ofList, List.any_eq_false] at hword
    exact hword c hlower hc
  simp [constant?, hword "true" (by decide), hword "false" (by decide),
    hword "null" (by decide), hword "none" (by decide)]

theorem isVariableName_eq_false (htext : text.any isForeign = true) :
    isVariableName text = false := by
  obtain ⟨c, hmem, hc⟩ := List.any_eq_true.mp htext
  rw [Bool.eq_false_iff]
  intro hname
  have hchar := (isWord_of_isVariableName hname).isNameChar hmem
  rw [(not_of_isForeign hc).1] at hchar
  cases hchar

theorem isCallName_eq_false (htext : text.any isForeign = true) : isCallName text = false := by
  rw [Bool.eq_false_iff]
  intro hname
  have hvariable := isVariableName_of_isCallName hname
  rw [isVariableName_eq_false htext] at hvariable
  cases hvariable

end Condition
end Rulebook
