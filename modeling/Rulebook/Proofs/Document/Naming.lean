import Rulebook.Proofs.Condition.Words
import Rulebook.Proofs.Document.Compiling

/-!
# Names of rules

The rules of a loaded document have clean names, but for one character: a line break may stand
behind the last one that is checked.
-/

namespace Rulebook

def IsLetter (c : Char) : Prop :=
  ('A' ≤ c ∧ c ≤ 'Z') ∨ ('a' ≤ c ∧ c ≤ 'z')

def IsDigit (c : Char) : Prop :=
  '0' ≤ c ∧ c ≤ '9'

/-- A name begins with a letter, and all of its characters are letters, digits and three signs. -/
structure IsCleanName (name : List Char) : Prop where
  letter : ∃ c ∈ name.head?, IsLetter c
  chars : ∀ c ∈ name, IsLetter c ∨ IsDigit c ∨ c = '_' ∨ c = '.' ∨ c = '-'

theorem isLetter_iff {c : Char} : IsLetter c ↔ c.isAlpha = true := by
  simp only [Char.isAlpha, Char.isUpper, Char.isLower, Bool.or_eq_true, Bool.and_eq_true,
    decide_eq_true_eq]
  exact Iff.rfl

theorem isDigit_iff {c : Char} : IsDigit c ↔ c.isDigit = true := by
  simp only [Char.isDigit, Bool.and_eq_true, decide_eq_true_eq]
  exact Iff.rfl

theorem isIdChar_iff {c : Char} :
    RuleDefinition.isIdChar c = true ↔
      IsLetter c ∨ IsDigit c ∨ c = '_' ∨ c = '.' ∨ c = '-' := by
  simp [RuleDefinition.isIdChar, Char.isAlphanum, isLetter_iff, isDigit_iff, or_assoc]

namespace IsCleanName

variable {name : List Char}

theorem of_isPlainId (hname : RuleDefinition.isPlainId name = true) : IsCleanName name := by
  cases name with
  | nil => cases hname
  | cons c rest =>
      rw [RuleDefinition.isPlainId, Bool.and_eq_true, List.all_eq_true] at hname
      have hletter := isLetter_iff.mpr hname.1
      exact ⟨⟨c, rfl, hletter⟩,
        List.forall_mem_cons.mpr ⟨.inl hletter, fun d hd => isIdChar_iff.mp (hname.2 d hd)⟩⟩

theorem isPrintable (hname : IsCleanName name) :
    ∀ c ∈ name, Text.isBlank c = false ∧ 32 < c.toNat ∧ c.toNat < 127 := by
  intro c hc
  have hchar : Condition.isVariableChar c = true := by
    have hid := isIdChar_iff.mpr (hname.chars c hc)
    simp only [RuleDefinition.isIdChar, Bool.or_eq_true, decide_eq_true_eq] at hid
    simp only [Condition.isVariableChar, Condition.isCallNameChar, Bool.or_eq_true,
      decide_eq_true_eq]
    tauto
  have hall := Condition.isVariableChar_imp
    (p := fun c => !Text.isBlank c && 32 < c.toNat && c.toNat < 127) (by decide) hchar
  simpa [and_assoc] using hall

end IsCleanName

namespace RuleDocument

/-- A name that is accepted is clean, except that a line break may follow. -/
theorem exists_isCleanName_of_isId {id : List Char} (hid : RuleDefinition.isId id = true) :
    ∃ name, IsCleanName name ∧ (id = name ∨ id = name ++ ['\n']) := by
  rw [RuleDefinition.isId, Bool.or_eq_true, Bool.and_eq_true, decide_eq_true_eq] at hid
  rcases hid with hname | ⟨hlast, hname⟩
  · exact ⟨id, .of_isPlainId hname, .inl rfl⟩
  · exact ⟨id.dropLast, .of_isPlainId hname, .inr (List.dropLast_append_getLast? _ hlast).symm⟩

def singleRule (id : String) : Term :=
  .mapping [(.str "rules", .list
    [.mapping [(.str "id", .str id), (.str "condition", .bool true), (.str "action", .int 1)]])]

def single (id : String) : Rule where
  id := id
  condition := .bool true
  action := .int 1
  note := .described {}

end RuleDocument

end Rulebook
