/-!
# Blank characters

What counts as white space around and inside a condition: the ASCII blanks, the four information
separators, and the separators of Unicode.
-/

namespace Rulebook
namespace Text

def wideBlanks : List Nat :=
  [0x85, 0xa0, 0x1680, 0x2000, 0x2001, 0x2002, 0x2003, 0x2004, 0x2005, 0x2006, 0x2007, 0x2008,
   0x2009, 0x200a, 0x2028, 0x2029, 0x202f, 0x205f, 0x3000]

/-- White space of every kind. -/
def isBlank (c : Char) : Bool :=
  if c.toNat < 128 then (9 ≤ c.toNat && c.toNat ≤ 13) || (28 ≤ c.toNat && c.toNat ≤ 32)
  else wideBlanks.contains c.toNat

theorem isBlank_of_isWhitespace {c : Char} (h : c.isWhitespace = true) : isBlank c = true := by
  simp only [Char.isWhitespace, Bool.or_eq_true, decide_eq_true_eq] at h
  rcases h with (((rfl | rfl) | rfl) | rfl) <;> decide

/-- A text without the blanks at its two ends. -/
def strip (text : List Char) : List Char :=
  ((text.dropWhile isBlank).reverse.dropWhile isBlank).reverse

theorem strip_length_le (text : List Char) : (strip text).length ≤ text.length := by
  have front := (List.dropWhile_sublist isBlank (l := text)).length_le
  have back := (List.dropWhile_sublist isBlank (l := (text.dropWhile isBlank).reverse)).length_le
  simp only [strip, List.length_reverse] at back ⊢
  omega

end Text
end Rulebook
