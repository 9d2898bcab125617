import Rulebook.Condition.Scan
import Rulebook.Proofs.Text.Strip

/-!
# Balanced texts

A text is balanced when a scan of it leaves no quote open, never closes a parenthesis that was not
opened in it, and closes every one that was.  A scan passes over a balanced text unchanged, at any
depth, and inside parentheses no character of it stands at the top.
-/

namespace Rulebook
namespace Condition

/-- The same place with a number of further parentheses open around it. -/
def Scan.raise (levels : Int) (scan : Scan) : Scan :=
  { scan with depth := scan.depth + levels }

def Scan.unquoted (depth : Int) : Scan where
  quote := none
  depth := depth

/-- A character that changes nothing in a scan. -/
def isPlain (c : Char) : Bool :=
  !isQuote c && c ≠ '(' && c ≠ ')'

theorem Scan.start_eq_unquoted : Scan.start = Scan.unquoted 0 := rfl

theorem Scan.step_raise (levels : Int) (scan : Scan) (c : Char) :
    (scan.raise levels).step c = (scan.step c).raise levels := by
  obtain ⟨quote, depth⟩ := scan
  cases quote with
  | none =>
      simp only [Scan.step, Scan.raise]
      split_ifs <;> simp <;> omega
  | some q =>
      simp only [Scan.step, Scan.raise]
      split_ifs <;> rfl

theorem Scan.after_raise (levels : Int) (scan : Scan) (text : List Char) :
    (scan.raise levels).after text = (scan.after text).raise levels := by
  induction text generalizing scan with
  | nil => rfl
  | cons c rest ih =>
      rw [Scan.after_cons, Scan.step_raise, ih, Scan.after_cons]

theorem Scan.step_of_isPlain {c : Char} (hc : isPlain c = true) (depth : Int) :
    (Scan.unquoted depth).step c = Scan.unquoted depth := by
  simp only [isPlain, Bool.and_eq_true, Bool.not_eq_true', decide_eq_true_eq] at hc
  simp [Scan.step, Scan.unquoted, hc]

theorem Scan.after_of_isPlain {text : List Char}
    (htext : text.all isPlain = true) (depth : Int) :
    (Scan.unquoted depth).after text = Scan.unquoted depth := by
  induction text with
  | nil => rfl
  | cons c rest ih =>
      rw [List.all_cons, Bool.and_eq_true] at htext
      rw [Scan.after_cons, Scan.step_of_isPlain htext.1, ih htext.2]

/-- Nothing happens inside of a quotation up to its closing quote. -/
theorem Scan.after_content {q : Char} {content : List Char}
    (hq : q ∉ content) (depth : Int) :
    Scan.after ⟨some q, depth⟩ content = ⟨some q, depth⟩ := by
  induction content with
  | nil => rfl
  | cons c rest ih =>
      rw [List.mem_cons, not_or] at hq
      have hstep : Scan.step ⟨some q, depth⟩ c = ⟨some q, depth⟩ := by
        simp [Scan.step, Ne.symm hq.1]
      rw [Scan.after_cons, hstep, ih hq.2]

/-! ## Balanced texts -/

/-- A scan of the text ends as it starts and never falls below its start. -/
structure Balanced (text : List Char) : Prop where
  closed : Scan.start.after text = Scan.start
  nonneg : ∀ count, 0 ≤ (Scan.start.after (text.take count)).depth

theorem balanced_iff {text : List Char} :
    Balanced text ↔ Scan.start.after text = Scan.start ∧
      ∀ count < text.length + 1, 0 ≤ (Scan.start.after (text.take count)).depth := by
  constructor
  · exact fun htext => ⟨htext.closed, fun count _ => htext.nonneg count⟩
  · rintro ⟨hclosed, hnonneg⟩
    refine ⟨hclosed, fun count => ?_⟩
    by_cases hcount : count < text.length + 1
    · exact hnonneg count hcount
    · rw [List.take_of_length_le (by omega), hclosed]
      exact Int.le_refl 0

instance : DecidablePred Balanced :=
  fun _ => decidable_of_iff _ balanced_iff.symm

namespace Balanced

theorem after_unquoted {text : List Char} (htext : Balanced text) (depth : Int) :
    (Scan.unquoted depth).after text = Scan.unquoted depth := by
  have hraise := Scan.after_raise depth Scan.start text
  rw [htext.closed] at hraise
  simpa [Scan.raise, Scan.start, Scan.unquoted] using hraise

theorem depth_le {text : List Char} (htext : Balanced text) (front back : List Char)
    (hsplit : text = front ++ back) (depth : Int) :
    depth ≤ ((Scan.unquoted depth).after front).depth := by
  have hnonneg := htext.nonneg front.length
  rw [hsplit, List.take_append_length] at hnonneg
  have hraise := Scan.after_raise depth Scan.start front
  have hstart : Scan.start.raise depth = Scan.unquoted depth := by
    simp [Scan.raise, Scan.start, Scan.unquoted]
  rw [← hstart, hraise]
  simp only [Scan.raise]
  omega

theorem nil : Balanced [] := by
  constructor
  · rfl
  · intro count
    simp [Scan.start]

theorem append {front back : List Char}
    (hfront : Balanced front) (hback : Balanced back) :
    Balanced (front ++ back) := by
  constructor
  · rw [Scan.after_append, hfront.closed, hback.closed]
  · intro count
    rw [List.take_append, Scan.after_append]
    by_cases hcount : count ≤ front.length
    · have hzero : count - front.length = 0 := by omega
      simpa [hzero] using hfront.nonneg count
    · rw [List.take_of_length_le (by omega), hfront.closed]
      exact hback.nonneg _

theorem of_isPlain {text : List Char} (htext : text.all isPlain = true) :
    Balanced text := by
  constructor
  · exact Scan.after_of_isPlain htext 0
  · intro count
    have htake : (text.take count).all isPlain = true := by
      rw [List.all_eq_true] at htext ⊢
      exact fun c hc => htext c (List.mem_of_mem_take hc)
    rw [Scan.start_eq_unquoted, Scan.after_of_isPlain htake]
    exact le_refl 0

theorem quoted {q : Char} {content : List Char}
    (hquote : isQuote q = true) (hq : q ∉ content) :
    Balanced (q :: content ++ [q]) := by
  have hopen : Scan.start.step q = ⟨some q, 0⟩ := by
    simp [Scan.step, Scan.start, hquote]
  constructor
  · rw [Scan.after_append, Scan.after_cons Scan.start q content, hopen, Scan.after_content hq]
    simp [Scan.step, Scan.start]
  · intro count
    cases count with
    | zero => simp [Scan.start]
    | succ count =>
        have htake : q ∉ content.take count := fun hmem => hq (List.mem_of_mem_take hmem)
        rw [List.cons_append, List.take_succ_cons, Scan.after_cons, hopen, List.take_append,
          Scan.after_append, Scan.after_content htake]
        cases count - content.length with
        | zero => simp
        | succ more => simp [Scan.step]

theorem group {text : List Char} (htext : Balanced text) :
    Balanced ('(' :: text ++ [')']) := by
  have hopen : Scan.start.step '(' = Scan.unquoted 1 := by decide
  have hclose : (Scan.unquoted 1).step ')' = Scan.start := by decide
  constructor
  · rw [Scan.after_append, Scan.after_cons Scan.start '(' text, hopen, htext.after_unquoted,
      Scan.after_cons, hclose, Scan.after_nil]
  · intro count
    cases count with
    | zero => simp [Scan.start]
    | succ count =>
        rw [List.cons_append, List.take_succ_cons, Scan.after_cons, hopen, List.take_append,
          Scan.after_append]
        by_cases hcount : count ≤ text.length
        · have hzero : count - text.length = 0 := by omega
          have hdepth := htext.depth_le _ _ (List.take_append_drop count text).symm 1
          rw [hzero, List.take_zero, Scan.after_nil]
          omega
        · obtain ⟨more, hmore⟩ : ∃ more, count - text.length = more + 1 :=
            ⟨count - text.length - 1, by omega⟩
          rw [List.take_of_length_le (by omega), htext.after_unquoted, hmore]
          simp [hclose, Scan.start]

theorem intercalate {separator : List Char} {texts : List (List Char)}
    (hseparator : Balanced separator) (htexts : ∀ text ∈ texts, Balanced text) :
    Balanced (separator.intercalate texts) := by
  by_cases hne : texts = []
  · rw [hne]
    exact nil
  · exact Text.intercalate_of_append
      (fun _ _ hfront hback => (hfront.append hseparator).append hback) hne htexts

/-- Inside parentheses no character of a balanced text stands at the top.  A closing parenthesis
counts to the level that it returns to, so it is the depth behind it that matters. -/
theorem not_isTop {text front back : List Char} {c : Char} (htext : Balanced text)
    (hsplit : text = front ++ c :: back) {depth : Int} (hdepth : 0 < depth) :
    ((Scan.unquoted depth).after front).isTop c = false := by
  have hbefore := htext.depth_le _ _ hsplit depth
  have hbehind := htext.depth_le (front ++ [c]) back (by simpa using hsplit) depth
  rw [Scan.after_append] at hbehind
  generalize (Scan.unquoted depth).after front = scan at hbefore hbehind
  obtain ⟨quote, level⟩ := scan
  cases quote with
  | some q => simp [Scan.isTop]
  | none =>
      by_cases hclose : c = ')'
      · subst hclose
        have hstep : Scan.step ⟨none, level⟩ ')' = ⟨none, level - 1⟩ := by
          simp [Scan.step, isQuote]
        rw [Scan.after_cons, Scan.after_nil, hstep] at hbehind
        simp only at hbehind
        simp [Scan.isTop]
        omega
      · simp only at hbefore
        have hlevel : level ≠ 0 := by omega
        simp [Scan.isTop, hclose, hlevel]

end Balanced

/-! ## What stands at the top -/

/-- Whether every character of a text that stands at the top is of a kind. -/
def Scan.everyTop (p : Char → Bool) (scan : Scan) : List Char → Bool
  | [] => true
  | c :: rest => (!scan.isTop c || p c) && (scan.step c).everyTop p rest

theorem Scan.everyTop_append (p : Char → Bool) (scan : Scan) (front back : List Char) :
    scan.everyTop p (front ++ back) =
      (scan.everyTop p front && (scan.after front).everyTop p back) := by
  induction front generalizing scan with
  | nil => simp [Scan.everyTop]
  | cons c rest ih =>
      rw [List.cons_append, Scan.everyTop, ih, Scan.everyTop, Scan.after_cons, Bool.and_assoc]

theorem Scan.everyTop_of_all {p : Char → Bool} {text : List Char}
    (htext : text.all p = true) (scan : Scan) :
    scan.everyTop p text = true := by
  induction text generalizing scan with
  | nil => rfl
  | cons c rest ih =>
      rw [List.all_cons, Bool.and_eq_true] at htext
      simp [Scan.everyTop, htext.1, ih htext.2]

/-- Where nothing stands at the top, every condition on what stands there holds. -/
theorem Scan.everyTop_of_forall {p : Char → Bool} {scan : Scan} {text : List Char}
    (htext : ∀ front c back, text = front ++ c :: back → (scan.after front).isTop c = false) :
    scan.everyTop p text = true := by
  induction text generalizing scan with
  | nil => rfl
  | cons c rest ih =>
      have hhead := htext [] c rest rfl
      rw [Scan.after_nil] at hhead
      have htail : (scan.step c).everyTop p rest = true := by
        apply ih
        intro front d back hsplit
        have hplace := htext (c :: front) d back (by rw [hsplit, List.cons_append])
        rwa [Scan.after_cons] at hplace
      simp [Scan.everyTop, hhead, htail]

/-- Characters with a property that a balanced text has at the top, in the order of writing. -/
def TopAll (p : Char → Bool) (text : List Char) : Prop :=
  (Scan.unquoted 0).everyTop p text = true

namespace TopAll

variable {p : Char → Bool}

theorem of_all {text : List Char} (htext : text.all p = true) : TopAll p text :=
  Scan.everyTop_of_all htext _

theorem append {front back : List Char} (hbalanced : Balanced front)
    (hfront : TopAll p front) (hback : TopAll p back) : TopAll p (front ++ back) := by
  unfold TopAll at *
  rw [Scan.everyTop_append, hbalanced.after_unquoted, hfront, hback]
  rfl

theorem quoted {q : Char} {content : List Char}
    (hquote : isQuote q = true) (hq : q ∉ content) : TopAll p (q :: content ++ [q]) := by
  unfold TopAll
  have hopen : (Scan.unquoted 0).step q = ⟨some q, 0⟩ := by
    simp [Scan.step, Scan.unquoted, hquote]
  have hinside : Scan.everyTop p ⟨some q, 0⟩ content = true := by
    apply Scan.everyTop_of_forall
    intro front c back hsplit
    have hfront : q ∉ front := fun hmem => hq (hsplit ▸ List.mem_append_left _ hmem)
    rw [Scan.after_content hfront]
    simp [Scan.isTop]
  rw [List.cons_append, Scan.everyTop, hopen, Scan.everyTop_append, hinside,
    Scan.after_content hq]
  simp [Scan.everyTop, Scan.isTop, Scan.unquoted, hquote]

/-- In a text in parentheses only these two stand at the top. -/
theorem group {text : List Char} (htext : Balanced text)
    (hopen : p '(' = true) (hclose : p ')' = true) : TopAll p ('(' :: text ++ [')']) := by
  unfold TopAll
  have hstep : (Scan.unquoted 0).step '(' = Scan.unquoted 1 := by decide
  have hinside : (Scan.unquoted 1).everyTop p text = true :=
    Scan.everyTop_of_forall fun _ _ _ hsplit => htext.not_isTop hsplit one_pos
  rw [List.cons_append, Scan.everyTop, hstep, Scan.everyTop_append, hinside,
    htext.after_unquoted]
  simp [Scan.everyTop, hopen, hclose]

end TopAll

end Condition
end Rulebook
