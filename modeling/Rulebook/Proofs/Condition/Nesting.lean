import Rulebook.Proofs.Condition.Words
import Rulebook.Proofs.Malformed

/-!
# What is nested in a condition

A reader hands only shorter texts to the reader of nested conditions: the parts between keywords,
the sides of a comparison and what is left behind negations are no longer than the text, and the
content of parentheses is shorter.  So two readers that agree on all shorter texts make the same of
a text, and a bound that is larger than the length of a text does not matter.
-/

namespace Rulebook
namespace Condition

open Text

/-- Two readers make the same of every text that is shorter than a bound. -/
def AgreeBelow (bound : Nat) (first second : List Char → Except Malformed Term) : Prop :=
  ∀ text, text.length < bound → first text = second text

theorem AgreeBelow.mono {bound smaller : Nat} {first second : List Char → Except Malformed Term}
    (hagree : AgreeBelow bound first second) (hle : smaller ≤ bound) :
    AgreeBelow smaller first second :=
  fun text htext => hagree text (Nat.lt_of_lt_of_le htext hle)

/-! ## Lengths -/

theorem Keyword.length_le_of_mem_splitFrom {keyword : Keyword} {skip : Nat} {scan : Scan}
    {before : Option Char} {part text piece : List Char}
    (hpiece : piece ∈ keyword.splitFrom skip scan before part text) :
    piece.length ≤ part.length + text.length := by
  induction text generalizing skip scan before part with
  | nil =>
      rw [splitFrom, List.mem_singleton] at hpiece
      simp [hpiece]
  | cons c rest ih =>
      rw [List.length_cons]
      rw [splitFrom.eq_def] at hpiece
      cases skip with
      | succ skip =>
          have hle := ih hpiece
          omega
      | zero =>
          simp only at hpiece
          split_ifs at hpiece
          · rcases List.mem_cons.mp hpiece with rfl | hpiece
            · rw [List.length_reverse]
              omega
            · have hle := ih hpiece
              rw [List.length_nil] at hle
              omega
          · have hle := ih hpiece
            rw [List.length_cons] at hle
            omega

theorem Keyword.length_le_of_mem_split {keyword : Keyword} {text piece : List Char}
    (hpiece : piece ∈ keyword.split text) : piece.length ≤ text.length := by
  have hle := length_le_of_mem_splitFrom hpiece
  rwa [List.length_nil, Nat.zero_add] at hle

theorem length_le_of_mem_splitCommasFrom {scan : Scan} {part text piece : List Char}
    (hpiece : piece ∈ splitCommasFrom scan part text) :
    piece.length ≤ part.length + text.length := by
  induction text generalizing scan part with
  | nil =>
      rw [splitCommasFrom, List.mem_singleton] at hpiece
      simp [hpiece]
  | cons c rest ih =>
      rw [List.length_cons]
      rw [splitCommasFrom] at hpiece
      split_ifs at hpiece
      · rcases List.mem_cons.mp hpiece with rfl | hpiece
        · rw [List.length_reverse]
          omega
        · have hle := ih hpiece
          rw [List.length_nil] at hle
          omega
      · have hle := ih hpiece
        rw [List.length_cons] at hle
        omega

theorem length_le_of_cutSymbolFrom {symbol front text left right : List Char} {scan : Scan}
    (hcut : cutSymbolFrom symbol scan front text = some (left, right)) :
    left.length ≤ front.length + text.length ∧ right.length ≤ text.length := by
  induction text generalizing scan front with
  | nil => cases hcut
  | cons c rest ih =>
      rw [cutSymbolFrom] at hcut
      split_ifs at hcut
      · cases hcut
        rw [List.length_reverse, List.length_drop]
        omega
      · obtain ⟨hleft, hright⟩ := ih hcut
        rw [List.length_cons] at hleft ⊢
        omega

theorem length_le_of_comparison? {text left right : List Char} {operator : String}
    (hcut : comparison? text = some (operator, left, right)) :
    left.length ≤ text.length ∧ right.length ≤ text.length := by
  obtain ⟨⟨symbol, name⟩, -, hfound⟩ := List.exists_of_findSome?_eq_some hcut
  obtain ⟨⟨front, back⟩, hsides, heq⟩ := Option.map_eq_some_iff.mp hfound
  cases heq
  have hle := length_le_of_cutSymbolFrom hsides
  rwa [List.length_nil, Nat.zero_add] at hle

theorem length_takeNots_le (bound : Nat) (text : List Char) :
    (takeNots bound text).2.length ≤ text.length := by
  induction bound generalizing text with
  | zero => exact strip_length_le text
  | succ bound ih =>
      have hstrip := strip_length_le text
      simp only [takeNots]
      split_ifs
      · have hle := ih ((strip text).drop 3)
        rw [List.length_drop] at hle
        exact hle.trans ((Nat.sub_le _ _).trans hstrip)
      · exact hstrip

/-- The content of parentheses is shorter than the text that they stand in. -/
theorem length_content_lt {text : List Char} (hne : text ≠ []) :
    (text.drop 1).dropLast.length < text.length := by
  have hpos := List.length_pos_iff.mpr hne
  rw [List.length_dropLast, List.length_drop]
  omega

theorem exists_of_call? {text name arguments : List Char}
    (hcall : call? text = some (name, arguments)) :
    ∃ rest, text = name ++ rest ∧ isCallName name = true ∧ rest.head? = some '(' ∧
      wraps rest = true ∧ arguments = (rest.drop 1).dropLast := by
  unfold call? at hcall
  simp only at hcall
  split_ifs at hcall with hcalled
  cases hcall
  rw [Bool.and_eq_true] at hcalled
  refine ⟨_, List.takeWhile_append_dropWhile.symm, hcalled.1, ?_, hcalled.2, rfl⟩
  have hhead := List.head?_dropWhile_not (fun c : Char => decide (c ≠ '(')) text
  generalize text.dropWhile (fun c => decide (c ≠ '(')) = rest at hcalled hhead
  cases rest with
  | nil => cases hcalled.2
  | cons c rest => simpa using hhead

theorem length_lt_of_call? {text name content : List Char}
    (hcall : call? text = some (name, content)) : content.length < text.length := by
  obtain ⟨rest, rfl, -, hparen, -, rfl⟩ := exists_of_call? hcall
  have hne : rest ≠ [] := by
    rintro rfl
    cases hparen
  have hcontent := length_content_lt hne
  rw [List.length_append]
  omega

/-! ## Agreement -/

section Agreement

variable {first second : List Char → Except Malformed Term} {text : List Char}

theorem readOperand_congr (hagree : AgreeBelow text.length first second) :
    readOperand first text = readOperand second text := by
  have hstrip := strip_length_le text
  unfold readOperand
  simp only
  generalize strip text = core at hstrip
  by_cases hempty : core.isEmpty = true
  · rw [if_pos hempty, if_pos hempty]
  rw [if_neg hempty, if_neg hempty]
  by_cases hgroup : (decide (core.head? = some '(') && wraps core) = true
  · have hne : core ≠ [] := by simpa using hempty
    have hcontent := length_content_lt hne
    have hinside := strip_length_le (core.drop 1).dropLast
    rw [if_pos hgroup, if_pos hgroup]
    exact hagree _ (by omega)
  · rw [if_neg hgroup, if_neg hgroup]
    cases hcall : call? core with
    | none => rfl
    | some call =>
        obtain ⟨name, content⟩ := call
        have hcontent := length_lt_of_call? hcall
        have hinside := strip_length_le content
        have hoperands : (splitCommas (strip content)).mapM (fun argument =>
            first (strip argument)) =
              (splitCommas (strip content)).mapM fun argument => second (strip argument) := by
          apply mapM_congr
          intro argument hargument
          have hpart := length_le_of_mem_splitCommasFrom hargument
          have hargumentStrip := strip_length_le argument
          rw [List.length_nil] at hpart
          exact hagree _ (by omega)
        simp only [hoperands]

theorem readComparison_congr (hagree : AgreeBelow text.length first second) :
    readComparison first text = readComparison second text := by
  unfold readComparison
  cases hcut : comparison? text with
  | none => exact readOperand_congr hagree
  | some cut =>
      obtain ⟨operator, left, right⟩ := cut
      obtain ⟨hleft, hright⟩ := length_le_of_comparison? hcut
      simp only [readOperand_congr (hagree.mono hleft), readOperand_congr (hagree.mono hright)]

theorem readNegation_congr (hagree : AgreeBelow text.length first second) :
    readNegation first text = readNegation second text := by
  have hrest := length_takeNots_le text.length text
  unfold readNegation
  simp only [readComparison_congr (hagree.mono hrest)]

theorem readJoined_congr (keyword : Keyword) (operator : String)
    {firstPart secondPart : List Char → Except Malformed Term}
    (hparts : ∀ part, part.length ≤ text.length → firstPart part = secondPart part) :
    readJoined keyword operator firstPart text = readJoined keyword operator secondPart text := by
  have hoperands : ((keyword.split text).mapM fun p => firstPart (strip p)) =
      (keyword.split text).mapM fun p => secondPart (strip p) := by
    apply mapM_congr
    intro part hpart
    have hle := Keyword.length_le_of_mem_split hpart
    have hstrip := strip_length_le part
    exact hparts _ (by omega)
  have hwhole := hparts text (Nat.le_refl _)
  unfold readJoined
  generalize keyword.split text = parts at hoperands ⊢
  rcases parts with _ | ⟨part, _ | ⟨next, others⟩⟩
  · rfl
  · exact hwhole
  · simp only [hoperands]

theorem readDisjunction_congr (hagree : AgreeBelow text.length first second) :
    readDisjunction first text = readDisjunction second text := by
  apply readJoined_congr
  intro part hpart
  apply readJoined_congr
  intro smaller hsmaller
  exact readNegation_congr (hagree.mono (hsmaller.trans hpart))

end Agreement

/-- Bounds that are larger than the length of a text make no difference. -/
theorem agreeBelow_readWithin {bound first second : Nat} (hfirst : bound ≤ first)
    (hsecond : bound ≤ second) : AgreeBelow bound (readWithin first) (readWithin second) := by
  induction bound generalizing first second with
  | zero => exact fun text htext => absurd htext (Nat.not_lt_zero _)
  | succ bound ih =>
      intro text htext
      obtain ⟨first, rfl⟩ := Nat.exists_eq_add_of_le' hfirst
      obtain ⟨second, rfl⟩ := Nat.exists_eq_add_of_le' hsecond
      rw [← Nat.add_assoc, ← Nat.add_assoc, readWithin, readWithin]
      apply readDisjunction_congr
      exact (ih (Nat.le_add_left _ _) (Nat.le_add_left _ _)).mono (Nat.le_of_lt_succ htext)

end Condition
end Rulebook
