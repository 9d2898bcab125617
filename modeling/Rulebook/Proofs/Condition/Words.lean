import Rulebook.Condition.Reader
import Rulebook.Proofs.Condition.Scanning

/-!
# Words of a condition

The characters of names are ASCII, so what holds of them is decided by going through ASCII once.
A text that begins like a name is no number, and the decimal writing of a whole number is read as
that number.
-/

namespace Rulebook
namespace Condition

def isComparisonChar (c : Char) : Bool :=
  c = '<' || c = '>' || c = '=' || c = '!'

theorem toNat_lt_of_isVariableChar {c : Char} (hc : isVariableChar c = true) :
    c.toNat < 128 := by
  simp only [isVariableChar, isCallNameChar, Char.isAlphanum, Char.isAlpha, Char.isUpper,
    Char.isLower, Char.isDigit, Bool.or_eq_true, Bool.and_eq_true, decide_eq_true_eq,
    UInt32.le_iff_toNat_le, ge_iff_le] at hc
  have hval : c.val.toNat = c.toNat := rfl
  rcases hc with (((halnum | rfl) | rfl) | rfl) | rfl
  · rw [hval] at halnum
    have hz : ('z' : Char).val.toNat = 122 := rfl
    have hZ : ('Z' : Char).val.toNat = 90 := rfl
    have h9 : ('9' : Char).val.toNat = 57 := rfl
    omega
  all_goals decide

/-- What holds of the characters of names is decided by going through ASCII. -/
theorem isVariableChar_imp {p : Char → Bool}
    (h : ∀ n < 128, isVariableChar (Char.ofNat n) = true → p (Char.ofNat n) = true)
    {c : Char} (hc : isVariableChar c = true) : p c = true := by
  have hn := h c.toNat (toNat_lt_of_isVariableChar hc)
  rw [Char.ofNat_toNat] at hn
  exact hn hc

theorem isNameChar_of_isVariableChar {c : Char} (hc : isVariableChar c = true) :
    isNameChar c = true :=
  isVariableChar_imp (p := isNameChar) (by decide) hc

theorem isVariableChar_of_beginsName {c : Char} (hc : beginsName c = true) :
    isVariableChar c = true := by
  simp only [beginsName, Bool.or_eq_true, decide_eq_true_eq] at hc
  rcases hc with halpha | rfl
  · simp [isVariableChar, isCallNameChar, Char.isAlphanum, halpha]
  · decide

theorem isNameChar_toUpper (c : Char) : isNameChar c.toUpper = isNameChar c := by
  by_cases hlower : c.isLower = true
  · have hc : isVariableChar c = true := by
      simp [isVariableChar, isCallNameChar, Char.isAlphanum, Char.isAlpha, hlower]
    rw [isNameChar_of_isVariableChar hc]
    exact isVariableChar_imp (p := fun c => isNameChar c.toUpper) (by decide) hc
  · have hself : c.toUpper = c := by
      simp only [Char.isLower, Bool.and_eq_true, decide_eq_true_eq] at hlower
      simp only [Char.toUpper, dif_neg hlower]
    rw [hself]

/-! ## Words -/

/-- A text of characters that names are made of. -/
structure IsWord (text : List Char) : Prop where
  ne_nil : text ≠ []
  chars : text.all isVariableChar = true

theorem isWord_of_isVariableName {text : List Char} (htext : isVariableName text = true) :
    IsWord text := by
  cases text with
  | nil => simp [isVariableName] at htext
  | cons c rest =>
      rw [isVariableName, Bool.and_eq_true] at htext
      constructor
      · exact List.cons_ne_nil c rest
      · rw [List.all_cons, isVariableChar_of_beginsName htext.1, htext.2, Bool.and_self]

theorem isVariableName_of_isCallName {text : List Char} (htext : isCallName text = true) :
    isVariableName text = true := by
  cases text with
  | nil => simp [isCallName] at htext
  | cons c rest =>
      rw [isCallName, Bool.and_eq_true] at htext
      have hrest : rest.all isVariableChar = true := by
        rw [List.all_eq_true] at htext ⊢
        intro d hd
        simp [isVariableChar, htext.2 d hd]
      rw [isVariableName, htext.1, hrest]
      rfl

namespace IsWord

variable {text : List Char}

theorem all_imp {p : Char → Bool} (htext : IsWord text)
    (h : ∀ n < 128, isVariableChar (Char.ofNat n) = true → p (Char.ofNat n) = true) :
    text.all p = true := by
  have hchars := htext.chars
  rw [List.all_eq_true] at hchars ⊢
  exact fun c hc => isVariableChar_imp h (hchars c hc)

theorem isNameChar (htext : IsWord text) {c : Char} (hc : c ∈ text) :
    Condition.isNameChar c = true :=
  isNameChar_of_isVariableChar (List.all_eq_true.mp htext.chars c hc)

theorem balanced (htext : IsWord text) : Balanced text :=
  Balanced.of_isPlain (htext.all_imp (by decide))

theorem topAll {p : Char → Bool} (htext : IsWord text)
    (h : ∀ n < 128, isVariableChar (Char.ofNat n) = true → p (Char.ofNat n) = true) :
    TopAll p text :=
  TopAll.of_all (htext.all_imp h)

theorem not_mem (htext : IsWord text) {c : Char} (hc : isVariableChar c = false) :
    c ∉ text := by
  intro hmem
  have hchar := List.all_eq_true.mp htext.chars c hmem
  simp [hc] at hchar

end IsWord

/-! ## Numbers -/

theorem digitValue?_of_beginsName {c : Char} (hc : beginsName c = true) :
    Text.digitValue? c = none := by
  have hvalue := isVariableChar_imp
    (p := fun c => !beginsName c || (Text.digitValue? c).isNone) (by decide)
    (isVariableChar_of_beginsName hc)
  simpa [hc] using hvalue

/-- What begins like a name has no digit at its front. -/
theorem digits?_of_beginsName {c : Char} (hc : beginsName c = true) (rest : List Char) :
    Text.digits? (c :: rest) = none := by
  have hvalue := digitValue?_of_beginsName hc
  rw [Text.digits?.eq_def]
  split <;> simp_all

theorem signed_of_beginsName {c : Char} (hc : beginsName c = true) (rest : List Char) :
    Text.signed (c :: rest) = (false, c :: rest) := by
  have hminus : c ≠ '-' := by
    rintro rfl
    exact absurd hc (by decide)
  have hplus : c ≠ '+' := by
    rintro rfl
    exact absurd hc (by decide)
  rw [Text.signed.eq_def]
  split <;> simp_all

theorem cut_cons_of_pos {isCut : Char → Bool} {c : Char} (hc : isCut c = true)
    (rest : List Char) : Text.cut isCut (c :: rest) = ([], some rest) := by
  simp [Text.cut, hc]

theorem cut_cons_of_neg {isCut : Char → Bool} {c : Char} (hc : isCut c = false)
    (rest : List Char) :
    Text.cut isCut (c :: rest) =
      (c :: (Text.cut isCut rest).1, (Text.cut isCut rest).2) := by
  simp only [Text.cut, List.takeWhile_cons, List.dropWhile_cons, hc, Bool.not_false, if_true]
  cases rest.dropWhile (!isCut ·) <;> rfl

/-- A decimal begins with a digit or with a point, even if an exponent follows. -/
theorem decimal?_of_beginsName {c : Char} (hc : beginsName c = true) (rest : List Char) :
    Text.decimal? (c :: rest) = none := by
  have hpoint : decide (c = '.') = false := by
    rw [decide_eq_false_iff_not]
    rintro rfl
    exact absurd hc (by decide)
  have hpointCut : ∀ text : List Char, Text.cut (· = '.') (c :: text) =
      (c :: (Text.cut (· = '.') text).1, (Text.cut (· = '.') text).2) :=
    cut_cons_of_neg hpoint
  rw [Text.decimal?, signed_of_beginsName hc]
  cases he : decide (c = 'e') || decide (c = 'E') with
  | true =>
      have hcut : Text.cut (fun c => c = 'e' || c = 'E') (c :: rest) = ([], some rest) :=
        cut_cons_of_pos (by simpa using he) rest
      simp only [hcut]
      cases Text.whole? rest <;> rfl
  | false =>
      have hcut : Text.cut (fun c => c = 'e' || c = 'E') (c :: rest) =
          (c :: (Text.cut (fun c => c = 'e' || c = 'E') rest).1,
            (Text.cut (fun c => c = 'e' || c = 'E') rest).2) :=
        cut_cons_of_neg (by simpa using he) rest
      simp only [hcut, hpointCut, Text.side?, List.isEmpty_cons, Bool.false_eq_true, if_false,
        digits?_of_beginsName hc]
      cases (Text.cut (fun c => c = 'e' || c = 'E') rest).2 with
      | none => rfl
      | some text =>
          dsimp only
          cases Text.whole? text <;> rfl

theorem number?_of_beginsName {c : Char} (hc : beginsName c = true) (rest : List Char) :
    number? (c :: rest) = none := by
  simp [number?, decimal?_of_beginsName hc, Text.whole?, signed_of_beginsName hc,
    digits?_of_beginsName hc]

theorem digitValue?_of_isDigit {c : Char} (hc : c.isDigit = true) :
    Text.digitValue? c = some (c.toNat - '0'.toNat) := by
  have hc' := Char.isDigit_iff_toNat.mp hc
  have hfirst : Text.digitZeros = 0x30 :: Text.digitZeros.tail := rfl
  rw [Text.digitValue?, hfirst]
  have hzero : '0'.toNat = 0x30 := rfl
  have hnine : '9'.toNat = 0x39 := rfl
  rw [List.find?_cons_of_pos (by simp; omega)]
  simp [hzero]

theorem digits?_of_isDigit {text : List Char} (hne : text ≠ [])
    (htext : ∀ c ∈ text, c.isDigit = true) :
    Text.digits? text = some (text.map fun c => c.toNat - '0'.toNat) := by
  induction text with
  | nil => exact absurd rfl hne
  | cons c rest ih =>
      have hc := digitValue?_of_isDigit (htext c List.mem_cons_self)
      cases rest with
      | nil => simp [Text.digits?, hc]
      | cons d rest =>
          have hrest := ih (List.cons_ne_nil d rest)
            fun e he => htext e (List.mem_cons_of_mem c he)
          have hd : d ≠ '_' := by
            rintro rfl
            exact absurd (htext '_' (by simp)) (by decide)
          rw [List.map_cons]
          simp [Text.digits?, hd, hc, hrest]

theorem ofDigits_toDigits (n : Nat) :
    Text.ofDigits ((Nat.toDigits 10 n).map fun c => c.toNat - '0'.toNat) = n := by
  rw [Text.ofDigits, List.foldl_map]
  have hchars := Nat.ofDigitChars_ten_toDigits (n := n)
  rwa [Nat.ofDigitChars_eq_foldl] at hchars

theorem digits?_toDigits (n : Nat) :
    (Text.digits? (Nat.toDigits 10 n)).map Text.ofDigits = some n := by
  rw [digits?_of_isDigit Nat.toDigits_ne_nil
    fun c hc => Nat.isDigit_of_mem_toDigits (by omega) (by omega) hc]
  rw [Option.map_some, ofDigits_toDigits]

theorem toList_toString_int (n : Int) :
    (toString n).toList =
      if n < 0 then '-' :: Nat.toDigits 10 n.natAbs else Nat.toDigits 10 n.natAbs := by
  rw [Int.toString_eq_repr]
  cases n with
  | ofNat n => simp [Int.repr, Nat.toList_repr]
  | negSucc n => simp [Int.repr, Nat.toList_repr, Int.negSucc_lt_zero]

/-- A numeral is not taken for a decimal, since it has no point. -/
theorem number?_int (n : Int) : number? (toString n).toList = some (.int n) := by
  have hdigits : ∀ c ∈ Nat.toDigits 10 n.natAbs, c.isDigit = true :=
    fun c hc => Nat.isDigit_of_mem_toDigits (by omega) (by omega) hc
  have hpoint : '.' ∉ Nat.toDigits 10 n.natAbs := fun hmem =>
    absurd (hdigits '.' hmem) (by decide)
  have hsigned : Text.signed (Nat.toDigits 10 n.natAbs) = (false, Nat.toDigits 10 n.natAbs) := by
    rw [Text.signed.eq_def]
    split
    · rename_i heq
      exact absurd (hdigits '-' (heq ▸ List.mem_cons_self)) (by decide)
    · rename_i heq
      exact absurd (hdigits '+' (heq ▸ List.mem_cons_self)) (by decide)
    · rfl
  obtain ⟨digits, hread, hvalue⟩ := Option.map_eq_some_iff.mp (digits?_toDigits n.natAbs)
  rw [toList_toString_int]
  split_ifs with hn
  · simp [number?, hpoint, Text.whole?, Text.signed, hread, hvalue, abs_of_neg hn]
  · simp [number?, hpoint, Text.whole?, hsigned, hread, hvalue, abs_of_nonneg (not_lt.mp hn)]

theorem mem_toList_toString_int {n : Int} {c : Char} (hc : c ∈ (toString n).toList) :
    c = '-' ∨ c.isDigit = true := by
  have hdigit : ∀ c ∈ Nat.toDigits 10 n.natAbs, c.isDigit = true :=
    fun c hc => Nat.isDigit_of_mem_toDigits (by omega) (by omega) hc
  rw [toList_toString_int] at hc
  split_ifs at hc
  · rw [List.mem_cons] at hc
    exact hc.imp_right (hdigit c)
  · exact .inr (hdigit c hc)

theorem isWord_int (n : Int) : IsWord (toString n).toList := by
  constructor
  · rw [toList_toString_int]
    split_ifs
    · exact List.cons_ne_nil _ _
    · exact Nat.toDigits_ne_nil
  · rw [List.all_eq_true]
    intro c hc
    rcases mem_toList_toString_int hc with rfl | hdigit
    · decide
    · simp [isVariableChar, isCallNameChar, Char.isAlphanum, hdigit]

end Condition
end Rulebook
