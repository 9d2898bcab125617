import Rulebook.Proofs.Condition.Nesting
import Rulebook.Proofs.Condition.RoundTrip

/-!
# Conditions put together

A condition that is put together from texts in parentheses is read from what these texts are read
as, whatever they are, as long as each of them is balanced: no cut is made inside of their
parentheses.  What is in parentheses is read as it is read alone, but for the message if there is
nothing to read.  So the composed condition is accepted exactly if all parts are.
-/

namespace Rulebook
namespace Condition

open Text

def group (text : List Char) : List Char :=
  '(' :: text ++ [')']

section Group

variable {text : List Char}

theorem trimmed_group (text : List Char) : Trimmed (group text) :=
  Trimmed.between (by decide) (by decide) text

theorem trimmed_not (text : List Char) : Trimmed (['N', 'O', 'T'] ++ ' ' :: group text) := by
  have hword : Trimmed ['N', 'O', 'T'] := Trimmed.of_all (by decide) (by decide)
  exact hword.append (trimmed_group text) [' ']

theorem trimmed_compare (comparison : Comparison) (left right : List Char) :
    Trimmed (group left ++ (' ' :: comparison.symbol ++ ' ' :: group right)) := by
  have happend := (trimmed_group left).append (trimmed_group right)
    (' ' :: comparison.symbol ++ [' '])
  simpa using happend

theorem shape_group (htext : Balanced text) : Tree.Shape (group text) :=
  Tree.Shape.group htext

theorem free_group {keyword : Keyword} (htext : Balanced text) : keyword.Free (group text) :=
  Keyword.Free.group htext

theorem noComparison_group (htext : Balanced text) : TopAll (!isComparisonChar ·) (group text) :=
  TopAll.group htext (by decide) (by decide)

/-- A text that begins with a parenthesis is not taken for a negation. -/
theorem beginsNot_group (text rest : List Char) : beginsNot (group text ++ rest) = false := by
  simp [beginsNot, beginsWith, group]

end Group

def joinGroups (keyword : Keyword) (texts : List (List Char)) : List Char :=
  keyword.separator.intercalate (texts.map group)

section Joined

variable {keyword other : Keyword} {texts : List (List Char)}

theorem shape_joinGroups (htexts : ∀ text ∈ texts, Balanced text) (hne : texts ≠ []) :
    Tree.Shape (joinGroups keyword texts) := by
  have hseparator : keyword.separator.all (fun c => isPlain c && c ≠ ',') = true := by
    cases keyword <;> decide
  exact Tree.Shape.intercalate hseparator (List.map_eq_nil_iff.not.mpr hne)
    (List.forall_mem_map.mpr fun text htext => shape_group (htexts text htext))

theorem free_joinGroups (hother : keyword.text ≠ other.text)
    (htexts : ∀ text ∈ texts, Balanced text) (hne : texts ≠ []) :
    other.Free (joinGroups keyword texts) :=
  Tree.free_intercalate hother (List.map_eq_nil_iff.not.mpr hne)
    (List.forall_mem_map.mpr fun text htext => shape_group (htexts text htext))
    (List.forall_mem_map.mpr fun text htext => free_group (htexts text htext))

end Joined

/-! ## Reading what is in parentheses -/

section Readers

variable {nested : List Char → Except Malformed Term}

theorem takeNots_of_beginsNot (bound : Nat) {text core : List Char} (hstrip : strip text = core)
    (hnot : beginsNot core = false) : takeNots bound text = (0, core) := by
  cases bound with
  | zero => rw [takeNots, hstrip]
  | succ bound => simp [takeNots, hstrip, hnot]

theorem readNegation_of_beginsNot {text : List Char} (htext : Trimmed text)
    (hnot : beginsNot text = false) : readNegation nested text = readComparison nested text := by
  simp only [readNegation, takeNots_of_beginsNot text.length (strip_of_trimmed htext) hnot]
  cases readComparison nested text <;> rfl

theorem readComparison_group {text : List Char} (htext : Balanced text) :
    readComparison nested (group text) = nested (strip text) := by
  rw [readComparison, comparison?_of_topAll (noComparison_group htext)]
  exact readOperand_group (strip_of_trimmed (trimmed_group text)) htext

theorem readNegation_group {text : List Char} (htext : Balanced text) :
    readNegation nested (group text) = nested (strip text) := by
  have hnot := beginsNot_group text []
  rw [List.append_nil] at hnot
  rw [readNegation_of_beginsNot (trimmed_group text) hnot, readComparison_group htext]

theorem readConjunction_group {text : List Char} (htext : Balanced text) :
    readConjunction nested (group text) = nested (strip text) := by
  rw [readConjunction, readJoined_of_free (free_group htext), readNegation_group htext]

theorem readDisjunction_group {text : List Char} (htext : Balanced text) :
    readDisjunction nested (group text) = nested (strip text) := by
  rw [readDisjunction, readJoined_of_free (free_group htext), readConjunction_group htext]

theorem readJoined_joinGroups (keyword : Keyword) (operator : String)
    {part : List Char → Except Malformed Term} {texts : List (List Char)}
    (htexts : ∀ text ∈ texts, Balanced text) (hlength : 2 ≤ texts.length)
    (hpart : ∀ text ∈ texts, part (group text) = nested (strip text)) :
    readJoined keyword operator part (joinGroups keyword texts) =
      (texts.mapM fun text => nested (strip text)).map (.call operator) := by
  have hne : texts ≠ [] := List.length_pos_iff.mp (by omega)
  have htrimmed : ∀ text ∈ texts.map group, Trimmed text :=
    List.forall_mem_map.mpr fun text _ => trimmed_group text
  have hfree : ∀ text ∈ texts.map group, keyword.Free text :=
    List.forall_mem_map.mpr fun text htext => free_group (htexts text htext)
  have hsplit := Keyword.map_strip_split_intercalate (List.map_eq_nil_iff.not.mpr hne)
    (List.forall_mem_map.mpr fun text htext => (shape_group (htexts text htext)).balanced)
    hfree htrimmed
  rw [joinGroups, readJoined_of_split hsplit (by simpa using hlength) htrimmed, List.mapM_map]
  exact congrArg _ (mapM_congr hpart)

theorem readConjunction_and {texts : List (List Char)} (htexts : ∀ text ∈ texts, Balanced text)
    (hlength : 2 ≤ texts.length) :
    readConjunction nested (joinGroups .and texts) =
      (texts.mapM fun text => nested (strip text)).map (.call "and") :=
  readJoined_joinGroups .and "and" htexts hlength fun text htext =>
    readNegation_group (htexts text htext)

theorem readDisjunction_and {texts : List (List Char)} (htexts : ∀ text ∈ texts, Balanced text)
    (hlength : 2 ≤ texts.length) :
    readDisjunction nested (joinGroups .and texts) =
      (texts.mapM fun text => nested (strip text)).map (.call "and") := by
  have hne : texts ≠ [] := List.length_pos_iff.mp (by omega)
  rw [readDisjunction, readJoined_of_free (free_joinGroups (by decide) htexts hne),
    readConjunction_and htexts hlength]

theorem readDisjunction_or {texts : List (List Char)} (htexts : ∀ text ∈ texts, Balanced text)
    (hlength : 2 ≤ texts.length) :
    readDisjunction nested (joinGroups .or texts) =
      (texts.mapM fun text => nested (strip text)).map (.call "or") :=
  readJoined_joinGroups .or "or" htexts hlength fun text htext =>
    readConjunction_group (htexts text htext)

/-- What stands behind `OR` may itself be joined by `AND`, which binds tighter. -/
theorem readDisjunction_or_and {first : List Char} {texts : List (List Char)}
    (hfirst : Balanced first) (htexts : ∀ text ∈ texts, Balanced text)
    (hlength : 2 ≤ texts.length) :
    readDisjunction nested (group first ++ Keyword.or.separator ++ joinGroups .and texts) =
      (do
        let a ← nested (strip first)
        let b ← (texts.mapM fun text => nested (strip text)).map (.call "and")
        .ok (.call "or" [a, b])) := by
  have hne : texts ≠ [] := List.length_pos_iff.mp (by omega)
  have hgroup := shape_group hfirst
  have hjoined : Tree.Shape (joinGroups .and texts) := shape_joinGroups htexts hne
  have htrimmed : ∀ part ∈ [group first, joinGroups .and texts], Trimmed part := by
    simpa using ⟨hgroup.trimmed, hjoined.trimmed⟩
  have hfree : ∀ part ∈ [group first, joinGroups .and texts], Keyword.or.Free part := by
    simpa using ⟨free_group hfirst, free_joinGroups (by decide) htexts hne⟩
  have hsplit := Keyword.map_strip_split_intercalate (List.cons_ne_nil _ _)
    (by simpa using ⟨hgroup.balanced, hjoined.balanced⟩) hfree htrimmed
  rw [List.intercalate_cons_cons, List.intercalate_singleton] at hsplit
  rw [readDisjunction, readJoined_of_split hsplit (Nat.le_refl 2) htrimmed, List.mapM_cons,
    List.mapM_cons, readConjunction_group hfirst, readConjunction_and htexts hlength]
  cases nested (strip first) with
  | error problem => rfl
  | ok a => cases texts.mapM fun text => nested (strip text) <;> rfl

theorem readDisjunction_not {text : List Char} (htext : Balanced text) :
    readDisjunction nested (['N', 'O', 'T'] ++ ' ' :: group text) =
      (nested (strip text)).map fun term => .call "not" [term] := by
  have hfree : ∀ keyword : Keyword, keyword.Free (['N', 'O', 'T'] ++ ' ' :: group text) := by
    intro keyword
    have hword : keyword.Free ['N', 'O', 'T'] :=
      Keyword.Free.word ⟨by decide, by decide⟩ (by cases keyword <;> decide)
    exact Keyword.Free.append_cons (Balanced.of_isPlain (by decide))
      (by decide : isPlain ' ' = true) (by decide) hword (free_group htext)
  have hblank : [' '].all isBlank = true := by decide
  have hrest : strip (' ' :: group text) = group text := strip_behind (trimmed_group text) hblank
  have hnot := beginsNot_group text []
  rw [List.append_nil] at hnot
  have htake : ∀ bound, takeNots (bound + 1) (['N', 'O', 'T'] ++ ' ' :: group text) =
      (1, group text) := by
    intro bound
    rw [takeNots, strip_of_trimmed (trimmed_not text)]
    simp [takeNots_of_beginsNot _ hrest hnot, beginsNot, beginsWith]
  rw [readDisjunction, readJoined_of_free (hfree .or), readConjunction,
    readJoined_of_free (hfree .and)]
  have hnots : takeNots (['N', 'O', 'T'] ++ ' ' :: group text).length
      (['N', 'O', 'T'] ++ ' ' :: group text) = (1, group text) := htake _
  simp only [readNegation, hnots, readComparison_group htext]
  cases nested (strip text) <;> rfl

/-- The sides of a comparison are read as operands, which are conditions again in parentheses. -/
theorem readDisjunction_compare (comparison : Comparison) {left right : List Char}
    (hleft : Balanced left) (hright : Balanced right) :
    readDisjunction nested (group left ++ (' ' :: comparison.symbol ++ ' ' :: group right)) =
      (do
        let a ← nested (strip left)
        let b ← nested (strip right)
        .ok (.call comparison.operator [a, b])) := by
  have hfree : ∀ keyword : Keyword,
      keyword.Free (group left ++ (' ' :: comparison.symbol ++ ' ' :: group right)) :=
    fun keyword => Keyword.Free.compared comparison (shape_group hleft).balanced
      (free_group hleft) (free_group hright)
  have hcut := comparison?_between comparison (shape_group hleft).balanced
    (noComparison_group hleft) (noComparison_group hright)
  have hblank : [' '].all isBlank = true := by decide
  have hreadLeft : readOperand nested (group left ++ [' ']) = nested (strip left) :=
    readOperand_group (strip_before (trimmed_group left) hblank) hleft
  have hreadRight : readOperand nested (' ' :: group right) = nested (strip right) :=
    readOperand_group (strip_behind (trimmed_group right) hblank) hright
  rw [readDisjunction, readJoined_of_free (hfree .or), readConjunction,
    readJoined_of_free (hfree .and),
    readNegation_of_beginsNot (trimmed_compare comparison left right) (beginsNot_group _ _)]
  simp only [readComparison, hcut, hreadLeft, hreadRight]

/-- Texts in parentheses that are joined by either keyword are operands of one operator. -/
theorem readDisjunction_joinGroups (keyword : Keyword) {texts : List (List Char)}
    (htexts : ∀ text ∈ texts, Balanced text) (hlength : 2 ≤ texts.length) :
    readDisjunction nested (joinGroups keyword texts) =
      (texts.mapM fun text => nested (strip text)).map (.call keyword.operator) := by
  cases keyword with
  | or => exact readDisjunction_or htexts hlength
  | and => exact readDisjunction_and htexts hlength

end Readers

/-! ## Acceptance -/

theorem read_of_trimmed {text : List Char} (htext : Trimmed text) :
    read text = readDisjunction (readWithin text.length) text := by
  have hne : text.isEmpty = false := List.isEmpty_eq_false_iff.mpr htext.ne_nil
  simp only [read, strip_of_trimmed htext, hne, Bool.false_eq_true, if_false, readWithin]

/-- A nested condition is accepted as it is alone.  Nothing at all is rejected in both places, but
not for the same reason. -/
theorem toOption_readWithin_strip {bound : Nat} {text : List Char} (htext : text.length < bound) :
    (readWithin bound (strip text)).toOption = (read text).toOption := by
  have hlength := strip_length_le text
  by_cases hempty : (strip text).isEmpty = true
  · obtain ⟨bound, rfl⟩ := Nat.exists_eq_add_of_le' (Nat.one_le_of_lt htext)
    have hblank : strip text = [] := List.isEmpty_iff.mp hempty
    have hmissing : readWithin (bound + 1) [] = .error .missingOperand := rfl
    simp only [read, hblank, hmissing, List.isEmpty_nil, if_true]
    rfl
  · have hagree : AgreeBelow ((strip text).length + 1) (readWithin bound)
        (readWithin ((strip text).length + 1)) :=
      agreeBelow_readWithin (by omega) (Nat.le_refl _)
    have hsame := hagree (strip text) (Nat.lt_succ_self _)
    simp only [read, hempty, hsame]
    rfl

/-! ## Composed conditions -/

/-- What a condition is read as, if it is accepted. -/
def reading? (text : String) : Option Term :=
  (ofTerm (.str text)).toOption

def enclosed (text : String) : String :=
  "(" ++ text ++ ")"

theorem reading?_of_toList {text : String} {chars : List Char} (htext : text.toList = chars) :
    reading? text = (read chars).toOption := by
  rw [← htext]
  rfl

theorem toList_enclosed (text : String) : (enclosed text).toList = group text.toList := by
  simp [enclosed, group]

theorem length_lt_group (text : List Char) : text.length < (group text).length := by
  simp [group]

section Composed

variable {text : String}

theorem reading?_enclosed (htext : Balanced text.toList) :
    reading? (enclosed text) = reading? text := by
  rw [reading?_of_toList (toList_enclosed text), read_of_trimmed (trimmed_group _),
    readDisjunction_group htext, toOption_readWithin_strip (length_lt_group _)]
  rfl

theorem reading?_not (htext : Balanced text.toList) :
    reading? ("NOT " ++ enclosed text) =
      (reading? text).map fun term => .call "not" [term] := by
  have hlist : ("NOT " ++ enclosed text).toList =
      ['N', 'O', 'T'] ++ ' ' :: group text.toList := by
    simp [toList_enclosed]
  have hlength : text.toList.length < (['N', 'O', 'T'] ++ ' ' :: group text.toList).length := by
    simp [group]
    omega
  rw [reading?_of_toList hlist, read_of_trimmed (trimmed_not text.toList),
    readDisjunction_not htext, toOption_map, toOption_readWithin_strip hlength]
  rfl

theorem toOption_mapM_readWithin {bound : Nat} {texts : List String}
    (htexts : ∀ text ∈ texts, text.toList.length < bound) :
    ((texts.map String.toList).mapM fun text => readWithin bound (strip text)).toOption =
      texts.mapM reading? := by
  rw [List.mapM_map, toOption_mapM]
  exact mapM_congr fun text htext => toOption_readWithin_strip (htexts text htext)

theorem length_lt_joinGroups (keyword : Keyword) {texts : List String} (htext : text ∈ texts) :
    text.toList.length < (joinGroups keyword (texts.map String.toList)).length := by
  have hmem : group text.toList ∈ (texts.map String.toList).map group :=
    List.mem_map_of_mem (List.mem_map_of_mem htext)
  exact Nat.lt_of_lt_of_le (length_lt_group _) (length_le_intercalate _ hmem)

theorem toList_intercalate_enclosed (keyword : Keyword) (texts : List String) :
    ((String.ofList keyword.separator).intercalate (texts.map enclosed)).toList =
      joinGroups keyword (texts.map String.toList) := by
  rw [String.toList_intercalate, String.toList_ofList, joinGroups, List.map_map, List.map_map]
  exact congrArg _ (List.map_congr_left fun text _ => toList_enclosed text)

theorem reading?_joined (keyword : Keyword) {texts : List String}
    (htexts : ∀ text ∈ texts, Balanced text.toList) (hlength : 2 ≤ texts.length) :
    reading? ((String.ofList keyword.separator).intercalate (texts.map enclosed)) =
      (texts.mapM reading?).map (.call keyword.operator) := by
  have hne : texts.map String.toList ≠ [] :=
    List.map_eq_nil_iff.not.mpr (List.length_pos_iff.mp (by omega))
  have hbalanced : ∀ text ∈ texts.map String.toList, Balanced text :=
    List.forall_mem_map.mpr htexts
  rw [reading?_of_toList (toList_intercalate_enclosed keyword texts),
    read_of_trimmed (shape_joinGroups hbalanced hne).trimmed,
    readDisjunction_joinGroups keyword hbalanced (by simpa using hlength), toOption_map,
    toOption_mapM_readWithin fun text htext => length_lt_joinGroups keyword htext]

theorem reading?_or_and {first : String} {texts : List String} (hfirst : Balanced first.toList)
    (htexts : ∀ text ∈ texts, Balanced text.toList) (hlength : 2 ≤ texts.length) :
    reading? (enclosed first ++ " OR " ++ " AND ".intercalate (texts.map enclosed)) =
      (do
        let a ← reading? first
        let b ← (texts.mapM reading?).map (.call "and")
        some (.call "or" [a, b])) := by
  have hne : texts.map String.toList ≠ [] :=
    List.map_eq_nil_iff.not.mpr (List.length_pos_iff.mp (by omega))
  have hbalanced : ∀ text ∈ texts.map String.toList, Balanced text :=
    List.forall_mem_map.mpr htexts
  have hjoined : Tree.Shape (joinGroups .and (texts.map String.toList)) :=
    shape_joinGroups hbalanced hne
  have hlist : (enclosed first ++ " OR " ++ " AND ".intercalate (texts.map enclosed)).toList =
      group first.toList ++ Keyword.or.separator ++
        joinGroups .and (texts.map String.toList) := by
    rw [← toList_intercalate_enclosed, String.toList_append, String.toList_append,
      toList_enclosed]
    rfl
  have htexts' : ∀ text ∈ texts, text.toList.length < (group first.toList ++
      Keyword.or.separator ++ joinGroups .and (texts.map String.toList)).length := by
    intro text htext
    have hlt := length_lt_joinGroups .and htext
    rw [List.length_append]
    omega
  have hfirst' : first.toList.length < (group first.toList ++
      Keyword.or.separator ++ joinGroups .and (texts.map String.toList)).length := by
    have hlt := length_lt_group first.toList
    rw [List.length_append, List.length_append]
    omega
  rw [reading?_of_toList hlist,
    read_of_trimmed ((trimmed_group first.toList).append hjoined.trimmed Keyword.or.separator),
    readDisjunction_or_and hfirst hbalanced (by simpa using hlength), toOption_bind,
    toOption_readWithin_strip hfirst']
  apply congrArg ((reading? first).bind ·)
  funext a
  rw [toOption_bind, toOption_map, toOption_mapM_readWithin htexts']
  rfl

theorem reading?_compare (comparison : Comparison) {left right : String}
    (hleft : Balanced left.toList) (hright : Balanced right.toList) :
    reading? (enclosed left ++ " " ++ String.ofList comparison.symbol ++ " " ++ enclosed right) =
      (do
        let a ← reading? left
        let b ← reading? right
        some (.call comparison.operator [a, b])) := by
  have hlist : (enclosed left ++ " " ++ String.ofList comparison.symbol ++ " " ++
      enclosed right).toList =
        group left.toList ++ (' ' :: comparison.symbol ++ ' ' :: group right.toList) := by
    simp [toList_enclosed]
  have hleft' : left.toList.length <
      (group left.toList ++ (' ' :: comparison.symbol ++ ' ' :: group right.toList)).length := by
    have hlt := length_lt_group left.toList
    rw [List.length_append]
    omega
  have hright' : right.toList.length <
      (group left.toList ++ (' ' :: comparison.symbol ++ ' ' :: group right.toList)).length := by
    have hlt := length_lt_group right.toList
    simp only [List.length_append, List.length_cons]
    omega
  rw [reading?_of_toList hlist, read_of_trimmed (trimmed_compare comparison _ _),
    readDisjunction_compare comparison hleft hright, toOption_bind,
    toOption_readWithin_strip hleft']
  apply congrArg ((reading? left).bind ·)
  funext a
  rw [toOption_bind, toOption_readWithin_strip hright']
  rfl

/-- A condition in parentheses is the condition itself; negations, conjunctions, disjunctions and
comparisons of conditions in parentheses are those of what these are read as, and `AND` binds
tighter than `OR`.  If one of the conditions is rejected, so is what is composed of it. -/
theorem reads_composed (texts : List String) (htexts : ∀ text ∈ texts, Balanced text.toList) :
    (∀ text ∈ texts,
      reading? (enclosed text) = reading? text ∧
      reading? ("NOT " ++ enclosed text) =
        (reading? text).map fun term => .call "not" [term]) ∧
    (2 ≤ texts.length →
      reading? (" AND ".intercalate (texts.map enclosed)) =
        (texts.mapM reading?).map (.call "and") ∧
      reading? (" OR ".intercalate (texts.map enclosed)) =
        (texts.mapM reading?).map (.call "or")) ∧
    (∀ first ∈ texts, ∀ second ∈ texts,
      (∀ comparison : Comparison,
        reading? (enclosed first ++ " " ++ String.ofList comparison.symbol ++ " " ++
            enclosed second) = do
          let a ← reading? first
          let b ← reading? second
          some (.call comparison.operator [a, b])) ∧
      ∀ third ∈ texts,
        reading? (enclosed first ++ " OR " ++ enclosed second ++ " AND " ++ enclosed third) = do
          let a ← reading? first
          let b ← reading? second
          let c ← reading? third
          some (.call "or" [a, .call "and" [b, c]])) := by
  refine ⟨?single, ?joined, ?sides⟩
  case single =>
    intro text htext
    exact ⟨reading?_enclosed (htexts text htext), reading?_not (htexts text htext)⟩
  case joined =>
    intro hlength
    exact ⟨reading?_joined .and htexts hlength, reading?_joined .or htexts hlength⟩
  case sides =>
    intro first hfirst second hsecond
    refine ⟨fun comparison =>
      reading?_compare comparison (htexts first hfirst) (htexts second hsecond), ?_⟩
    intro third hthird
    have hpair : ∀ text ∈ [second, third], Balanced text.toList := by
      simpa using ⟨htexts second hsecond, htexts third hthird⟩
    have hread := reading?_or_and (htexts first hfirst) hpair (Nat.le_refl 2)
    have hjoin : " AND ".intercalate ([second, third].map enclosed) =
        enclosed second ++ " AND " ++ enclosed third := by
      simp
    rw [hjoin, ← String.append_assoc, ← String.append_assoc] at hread
    rw [hread, List.mapM_cons, List.mapM_cons, List.mapM_nil]
    cases reading? first <;> cases reading? second <;> cases reading? third <;> rfl

/-- The parts hold keywords, and a parenthesis that is quoted. -/
theorem reads_composed_keywords :
    (∀ text ∈ ["a OR b", "f(')', c)", "a OR"], Balanced text.toList) ∧
    reading? "NOT (a OR b)" = some (.call "not" [.call "or" [.variable "a", .variable "b"]]) ∧
    reading? "(a OR b) OR (f(')', c)) AND (a OR b)" =
      some (.call "or" [.call "or" [.variable "a", .variable "b"],
        .call "and" [.call "f" [.str ")", .variable "c"],
          .call "or" [.variable "a", .variable "b"]]]) ∧
    reading? "(f(')', c)) <= (a OR b)" =
      some (.call "<=" [.call "f" [.str ")", .variable "c"],
        .call "or" [.variable "a", .variable "b"]]) ∧
    reading? "(a OR b) AND (f(')', c)) AND (a OR)" = none := by
  have hbalanced : ∀ text ∈ ["a OR b", "f(')', c)", "a OR"], Balanced text.toList := by decide
  have hjoined : reading? "a OR b" = some (.call "or" [.variable "a", .variable "b"]) := rfl
  have hcalled : reading? "f(')', c)" = some (.call "f" [.str ")", .variable "c"]) := rfl
  have hrejected : reading? "a OR" = none := rfl
  obtain ⟨hsingle, hall, hsides⟩ := reads_composed _ hbalanced
  refine ⟨hbalanced, ?_, ?_, ?_, ?_⟩
  · have hnot := (hsingle "a OR b" (by decide)).2
    rw [hjoined] at hnot
    exact hnot
  · have hmixed := (hsides "a OR b" (by decide) "f(')', c)" (by decide)).2 "a OR b" (by decide)
    rw [hjoined, hcalled] at hmixed
    exact hmixed
  · have hcompare := (hsides "f(')', c)" (by decide) "a OR b" (by decide)).1 .atMost
    rw [hjoined, hcalled] at hcompare
    exact hcompare
  · have hand := (hall (by decide)).1
    simpa [hjoined, hcalled, hrejected, enclosed] using hand

end Composed

end Condition
end Rulebook
