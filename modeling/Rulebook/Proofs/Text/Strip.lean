import Mathlib
import Rulebook.Text.Blank

/-!
# Stripped and joined texts

Stripping takes away the blanks around a text that begins and ends with other characters, and
nothing else.
-/

namespace Rulebook
namespace Text

/-- A text that begins and ends with characters that are not blank. -/
structure Trimmed (text : List Char) : Prop where
  front : ∃ c rest, text = c :: rest ∧ isBlank c = false
  back : ∃ rest c, text = rest ++ [c] ∧ isBlank c = false

theorem Trimmed.ne_nil {text : List Char} (htext : Trimmed text) : text ≠ [] := by
  obtain ⟨c, rest, rfl, _⟩ := htext.front
  exact List.cons_ne_nil c rest

/-- Blanks around a trimmed text are all that stripping takes away. -/
theorem strip_padded {lead text trail : List Char} (htext : Trimmed text)
    (hlead : lead.all isBlank = true) (htrail : trail.all isBlank = true) :
    strip (lead ++ text ++ trail) = text := by
  obtain ⟨c, rest, hfront, hc⟩ := htext.front
  obtain ⟨init, d, hback, hd⟩ := htext.back
  have hdropLead : (lead ++ text ++ trail).dropWhile isBlank = text ++ trail := by
    rw [List.append_assoc, List.dropWhile_append_of_pos (List.all_eq_true.mp hlead), hfront,
      List.cons_append, List.dropWhile_cons_of_neg (by simp [hc])]
  have htrailReverse : ∀ c ∈ trail.reverse, isBlank c = true := by
    intro c hmem
    exact List.all_eq_true.mp htrail c (List.mem_reverse.mp hmem)
  have hdropTrail : (text ++ trail).reverse.dropWhile isBlank = text.reverse := by
    rw [List.reverse_append, List.dropWhile_append_of_pos htrailReverse, hback,
      List.reverse_append, List.reverse_singleton, List.singleton_append,
      List.dropWhile_cons_of_neg (by simp [hd])]
  rw [strip, hdropLead, hdropTrail, List.reverse_reverse]

theorem strip_behind {lead text : List Char} (htext : Trimmed text)
    (hlead : lead.all isBlank = true) : strip (lead ++ text) = text := by
  have hnil : ([] : List Char).all isBlank = true := rfl
  simpa using strip_padded htext hlead hnil

theorem strip_before {text trail : List Char} (htext : Trimmed text)
    (htrail : trail.all isBlank = true) : strip (text ++ trail) = text := by
  have hnil : ([] : List Char).all isBlank = true := rfl
  simpa using strip_padded htext hnil htrail

theorem strip_of_trimmed {text : List Char} (htext : Trimmed text) : strip text = text := by
  have hnil : ([] : List Char).all isBlank = true := rfl
  simpa using strip_behind htext hnil

theorem Trimmed.append {front back : List Char} (hfront : Trimmed front)
    (hback : Trimmed back) (middle : List Char) : Trimmed (front ++ middle ++ back) := by
  obtain ⟨c, rest, rfl, hc⟩ := hfront.front
  obtain ⟨init, d, rfl, hd⟩ := hback.back
  refine ⟨⟨c, rest ++ middle ++ (init ++ [d]), by simp, hc⟩, ?_⟩
  exact ⟨c :: rest ++ middle ++ init, d, by simp, hd⟩

theorem Trimmed.of_all {text : List Char} (hne : text ≠ [])
    (htext : text.all (!isBlank ·) = true) : Trimmed text := by
  rw [List.all_eq_true] at htext
  constructor
  · obtain ⟨c, rest, rfl⟩ := List.exists_cons_of_ne_nil hne
    exact ⟨c, rest, rfl, by simpa using htext c List.mem_cons_self⟩
  · refine ⟨text.dropLast, text.getLast hne, (List.dropLast_append_getLast hne).symm, ?_⟩
    simpa using htext _ (List.getLast_mem hne)

theorem Trimmed.between {c d : Char} (hc : isBlank c = false) (hd : isBlank d = false)
    (text : List Char) : Trimmed (c :: text ++ [d]) :=
  ⟨⟨c, text ++ [d], rfl, hc⟩, ⟨c :: text, d, rfl, hd⟩⟩

/-- A property that joining two texts keeps is kept by joining any number of them. -/
theorem intercalate_of_append {p : List Char → Prop} {separator : List Char}
    (happend : ∀ front back, p front → p back → p (front ++ separator ++ back))
    {texts : List (List Char)} (hne : texts ≠ []) (htexts : ∀ text ∈ texts, p text) :
    p (separator.intercalate texts) := by
  induction texts with
  | nil => exact absurd rfl hne
  | cons text texts ih =>
      have htext := htexts text List.mem_cons_self
      cases texts with
      | nil => rwa [List.intercalate_singleton]
      | cons next texts =>
          have hrest := ih (List.cons_ne_nil next texts) fun t ht =>
            htexts t (List.mem_cons_of_mem text ht)
          rw [List.intercalate_cons_cons]
          exact happend text _ htext hrest

theorem Trimmed.intercalate (separator : List Char) {texts : List (List Char)} (hne : texts ≠ [])
    (htexts : ∀ text ∈ texts, Trimmed text) : Trimmed (separator.intercalate texts) :=
  intercalate_of_append (fun _ _ hfront hback => hfront.append hback separator) hne htexts

end Text

end Rulebook
