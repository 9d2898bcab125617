import Rulebook.Proofs.Condition.Tree
import Rulebook.Proofs.Malformed

/-!
# Reading what was written

Every reader of a condition is handed the text of a tree at the level that it cuts.  Either the tree
has that level, and the cut finds its parts, or there is nothing to cut and the text goes to the
reader of the next tighter level.  What is nested is shorter, and so the bound on the nesting is
never met.
-/

namespace Rulebook
namespace Condition

open Text

def ReadsBelow (bound : Nat) (reader : List Char → Except Malformed Term) : Prop :=
  ∀ tree : Tree, tree.print.length < bound → reader tree.print = .ok tree.toTerm

theorem ReadsBelow.mono {bound smaller : Nat} {reader : List Char → Except Malformed Term}
    (hreader : ReadsBelow bound reader) (hle : smaller ≤ bound) : ReadsBelow smaller reader :=
  fun tree htree => hreader tree (by omega)

theorem length_le_intercalate (separator : List Char) {text : List Char}
    {texts : List (List Char)} (htext : text ∈ texts) :
    text.length ≤ (separator.intercalate texts).length := by
  induction texts with
  | nil => exact absurd htext List.not_mem_nil
  | cons first texts ih =>
      cases texts with
      | nil =>
          rw [List.mem_singleton] at htext
          rw [htext, List.intercalate_singleton]
      | cons next texts =>
          rw [List.intercalate_cons_cons, List.length_append, List.length_append]
          rcases List.mem_cons.mp htext with rfl | hmem
          · omega
          · have hle := ih hmem
            omega

/-! ## Operands -/

theorem quotedContent?_of_head {c : Char} (hc : isQuote c = false) (rest : List Char) :
    quotedContent? (c :: rest) = none := by
  simp [quotedContent?, hc]

theorem quotedContent?_quoted {q : Char} (hq : isQuote q = true) (content : List Char) :
    quotedContent? (q :: content ++ [q]) = some content := by
  simp [quotedContent?, hq]

theorem IsWord.exists_cons {word : List Char} (hword : IsWord word) :
    ∃ c rest, word = c :: rest ∧ isQuote c = false ∧ c ≠ '(' := by
  obtain ⟨c, rest, rfl⟩ := List.exists_cons_of_ne_nil hword.ne_nil
  have hchar := hword.chars
  rw [List.all_cons, Bool.and_eq_true] at hchar
  refine ⟨c, rest, rfl, ?_, ?_⟩
  · simpa using isVariableChar_imp (p := fun c => !isQuote c) (by decide) hchar.1
  · rintro rfl
    exact absurd hchar.1 (by decide)

theorem exists_beginsName {text : List Char} (htext : isVariableName text = true) :
    ∃ c rest, text = c :: rest ∧ beginsName c = true := by
  cases text with
  | nil => simp [isVariableName] at htext
  | cons c rest =>
      rw [isVariableName, Bool.and_eq_true] at htext
      exact ⟨c, rest, rfl, htext.1⟩

theorem beginsName_ne_parenthesis {c : Char} (hc : beginsName c = true) : c ≠ '(' := by
  rintro rfl
  exact absurd hc (by decide)

theorem isQuote_of_beginsName {c : Char} (hc : beginsName c = true) : isQuote c = false := by
  simpa using isVariableChar_imp (p := fun c => !isQuote c) (by decide)
    (isVariableChar_of_beginsName hc)

theorem constant?_of_notConstant {name : String} (hname : lowered name ∉ constantWords) :
    constant? name.toList = none := by
  simp only [lowered, constantWords, List.mem_cons, List.not_mem_nil, or_false, not_or] at hname
  simp [constant?, hname]

/-- A constant is written without parentheses. -/
theorem constant?_of_mem {text : List Char} (htext : '(' ∈ text) : constant? text = none := by
  have hmem : '(' ∈ text.map Char.toLower := List.mem_map.mpr ⟨'(', htext, by decide⟩
  have hne : ∀ word : String, '(' ∉ word.toList →
      String.ofList (text.map Char.toLower) ≠ word := by
    rintro word hword rfl
    rw [String.toList_ofList] at hword
    exact hword hmem
  simp [constant?, hne "true" (by decide), hne "false" (by decide), hne "null" (by decide),
    hne "none" (by decide)]

theorem call?_of_isWord {word : List Char} (hword : IsWord word) : call? word = none := by
  have hdrop : word.dropWhile (· ≠ '(') = [] := by
    rw [List.dropWhile_eq_nil_iff]
    intro c hc
    have hne : c ≠ '(' := by
      rintro rfl
      exact hword.not_mem (by decide) hc
    simpa using hne
  simp only [call?, hdrop, wraps, wrapsFrom, Bool.and_false, Bool.false_eq_true, if_false]

theorem call?_group {word content : List Char} (hword : isCallName word = true)
    (hcontent : Balanced content) :
    call? (word ++ ('(' :: content ++ [')'])) = some (word, content) := by
  have hne : ∀ c ∈ word, decide (c ≠ '(') = true := by
    intro c hc
    rw [decide_eq_true_eq]
    rintro rfl
    exact (isWord_of_isVariableName (isVariableName_of_isCallName hword)).not_mem (by decide) hc
  have htake : (word ++ ('(' :: content ++ [')'])).takeWhile (· ≠ '(') = word := by
    rw [List.takeWhile_append_of_pos hne, List.cons_append,
      List.takeWhile_cons_of_neg (by decide), List.append_nil]
  have hdrop : (word ++ ('(' :: content ++ [')'])).dropWhile (· ≠ '(') =
      '(' :: content ++ [')'] := by
    rw [List.dropWhile_append_of_pos hne, List.cons_append,
      List.dropWhile_cons_of_neg (by decide)]
  simp only [call?, htake, hdrop, hword, wraps_group hcontent]
  simp

section Operands

variable {nested : List Char → Except Malformed Term} {text : List Char}

theorem readOperand_group {content : List Char} (hstrip : strip text = '(' :: content ++ [')'])
    (hbalanced : Balanced content) : readOperand nested text = nested (strip content) := by
  have hwraps := wraps_group hbalanced
  rw [List.cons_append] at hstrip hwraps
  simp [readOperand, hstrip, hwraps]

theorem readOperand_int {n : Int} (hstrip : strip text = (toString n).toList) :
    readOperand nested text = .ok (.int n) := by
  obtain ⟨c, rest, hcons, hquote, hparenthesis⟩ := (isWord_int n).exists_cons
  have hnumber := number?_int n
  rw [hcons] at hstrip hnumber
  simp [readOperand, hstrip, hparenthesis, quotedContent?_of_head hquote, hnumber]

theorem readOperand_constant {c : Char} {rest : List Char} {constant : Term}
    (hstrip : strip text = c :: rest) (hc : beginsName c = true)
    (hconstant : constant? (c :: rest) = some constant) :
    readOperand nested text = .ok constant := by
  simp [readOperand, hstrip, beginsName_ne_parenthesis hc,
    quotedContent?_of_head (isQuote_of_beginsName hc), number?_of_beginsName hc, hconstant]

theorem readOperand_literal {literal : Literal}
    (hstrip : strip text = literal.quote :: literal.content.toList ++ [literal.quote]) :
    readOperand nested text = .ok (.str literal.content) := by
  have hcontent := quotedContent?_quoted literal.isQuote literal.content.toList
  have hparenthesis : literal.quote ≠ '(' := by
    intro heq
    exact absurd (heq ▸ literal.isQuote) (by decide)
  rw [List.cons_append] at hstrip hcontent
  simp [readOperand, hstrip, hparenthesis, hcontent]

theorem readOperand_variable {name : VariableName} (hstrip : strip text = name.name.toList) :
    readOperand nested text = .ok (.variable name.name) := by
  obtain ⟨c, rest, hcons, hc⟩ := exists_beginsName name.isName
  have hconstant := constant?_of_notConstant name.notConstant
  have hcall := call?_of_isWord name.isWord
  have hname := name.isName
  have hself : String.ofList (c :: rest) = name.name := by rw [← hcons, String.ofList_toList]
  rw [hcons] at hstrip hconstant hcall hname
  simp [readOperand, hstrip, beginsName_ne_parenthesis hc,
    quotedContent?_of_head (isQuote_of_beginsName hc), number?_of_beginsName hc, hconstant, hcall,
    hname, hself]

/-- The arguments of a call are cut into the trees that they were written for. -/
theorem readArguments {arguments : List Tree}
    (hnested : ∀ tree ∈ arguments, nested tree.print = .ok tree.toTerm) :
    (if (strip ([',', ' '].intercalate (Tree.printEach 0 arguments))).isEmpty then .ok []
      else (splitCommas (strip ([',', ' '].intercalate (Tree.printEach 0 arguments)))).mapM
        fun argument => nested (strip argument)) = .ok (arguments.map Tree.toTerm) := by
  by_cases hnil : arguments = []
  · subst hnil
    rfl
  · have hne : Tree.printEach 0 arguments ≠ [] := by
      rw [Tree.printEach_eq_map]
      exact fun heq => hnil (List.map_eq_nil_iff.mp heq)
    have hshape : ∀ part ∈ Tree.printEach 0 arguments, Tree.Shape part :=
      Tree.forall_mem_printEach fun tree _ => Tree.shape_printAt 0 tree
    have hstrip := strip_of_trimmed (Trimmed.intercalate [',', ' '] hne
      fun part hpart => (hshape part hpart).trimmed)
    have hsplit := map_strip_splitCommas_intercalate hne
      (fun part hpart => (hshape part hpart).balanced)
      (fun part hpart => (hshape part hpart).noComma)
      (fun part hpart => (hshape part hpart).trimmed)
    have hnonempty : (strip ([',', ' '].intercalate (Tree.printEach 0 arguments))).isEmpty =
        false := by
      rw [hstrip, List.isEmpty_eq_false_iff]
      exact (Trimmed.intercalate [',', ' '] hne fun part hpart =>
        (hshape part hpart).trimmed).ne_nil
    have hmap : ∀ parts : List (List Char),
        (parts.mapM fun argument => nested (strip argument)) = (parts.map strip).mapM nested :=
      fun parts => List.mapM_map.symm
    rw [hnonempty, if_neg Bool.false_ne_true, hstrip, hmap, hsplit, Tree.printEach_eq_map]
    exact mapM_eq_ok hnested

theorem readOperand_of_call? {c : Char} {rest name content : List Char} {operands : List Term}
    (hstrip : strip text = c :: rest) (hc : beginsName c = true)
    (hconstant : constant? (c :: rest) = none)
    (hcall : call? (c :: rest) = some (name, content))
    (hoperands : (if (strip content).isEmpty then .ok []
      else (splitCommas (strip content)).mapM fun argument => nested (strip argument)) =
        .ok operands) :
    readOperand nested text = .ok (.call (String.ofList name) operands) := by
  simp only [readOperand, hstrip, List.isEmpty_cons, List.head?_cons, Option.some.injEq,
    beginsName_ne_parenthesis hc, decide_false, Bool.false_and, Bool.false_eq_true, if_false,
    quotedContent?_of_head (isQuote_of_beginsName hc), number?_of_beginsName hc, hconstant, hcall]
  split_ifs at hoperands ⊢
  · cases hoperands
    rfl
  · rw [hoperands]
    rfl

theorem readOperand_call {function : FunctionName} {arguments : List Tree}
    (hstrip : strip text = (Tree.call function arguments).print)
    (hnested : ∀ tree ∈ arguments, nested tree.print = .ok tree.toTerm) :
    readOperand nested text = .ok (Tree.call function arguments).toTerm := by
  obtain ⟨c, rest, hcons, hc⟩ :=
    exists_beginsName (isVariableName_of_isCallName function.isName)
  have hcall := call?_group function.isName (Tree.balanced_printEach_intercalate arguments)
  have hconstant : constant? (Tree.call function arguments).print = none :=
    constant?_of_mem (by simp [Tree.print])
  rw [← Tree.print] at hcall
  have hprint : (Tree.call function arguments).print =
      c :: (rest ++ ('(' :: [',', ' '].intercalate (Tree.printEach 0 arguments) ++ [')'])) := by
    rw [Tree.print, hcons, List.cons_append]
  rw [hprint] at hstrip hcall hconstant
  rw [readOperand_of_call? hstrip hc hconstant hcall (readArguments hnested),
    String.ofList_toList, Tree.toTerm, Tree.toTerms_eq_map]

/-- The text of a tree as an operand is read by the readers of what is nested in it. -/
theorem readOperand_printAt {tree : Tree} (hstrip : strip text = tree.printAt 4)
    (hnested : ReadsBelow (tree.printAt 4).length nested) :
    readOperand nested text = .ok tree.toTerm := by
  by_cases hlevel : tree.level < 4
  · have hshape := tree.shape_print
    rw [Tree.printAt_of_lt hlevel] at hstrip hnested
    rw [readOperand_group hstrip hshape.balanced, strip_of_trimmed hshape.trimmed]
    exact hnested tree (by simp)
  · have hle := tree.level_le
    rw [Tree.printAt_of_le (by omega)] at hstrip hnested
    cases tree with
    | int n => exact readOperand_int hstrip
    | bool b =>
        cases b with
        | true => exact readOperand_constant hstrip (by decide) rfl
        | false => exact readOperand_constant hstrip (by decide) rfl
    | null => exact readOperand_constant hstrip (by decide) rfl
    | text literal => exact readOperand_literal hstrip
    | named name => exact readOperand_variable hstrip
    | call function arguments =>
        apply readOperand_call hstrip
        intro argument hargument
        apply hnested
        have hmem : argument.print ∈ Tree.printEach 0 arguments := by
          rw [Tree.printEach_eq_map]
          exact List.mem_map.mpr ⟨argument, hargument, argument.printAt_zero⟩
        have hlength := length_le_intercalate [',', ' '] hmem
        simp only [Tree.print, List.length_append, List.length_cons, List.length_nil]
        omega
    | compare comparison left right => exact absurd (by simp [Tree.level]) hlevel
    | not operand => exact absurd (by simp [Tree.level]) hlevel
    | joined keyword first second others =>
        exact absurd (by cases keyword <;> simp [Tree.level, Keyword.level]) hlevel

end Operands

/-! ## Comparisons and negations -/

section Levels

variable {nested : List Char → Except Malformed Term} {tree : Tree}

theorem readComparison_printAt (hnested : ReadsBelow (tree.printAt 3).length nested) :
    readComparison nested (tree.printAt 3) = .ok tree.toTerm := by
  by_cases hlevel : tree.level = 3
  · cases tree with
    | compare comparison left right =>
        have hprint : (Tree.compare comparison left right).printAt 3 =
            left.printAt 4 ++ (' ' :: comparison.symbol ++ ' ' :: right.printAt 4) :=
          Tree.printAt_of_le (by rw [hlevel])
        rw [hprint] at hnested ⊢
        have hcut := comparison?_between comparison (left.shape_printAt 4).balanced
          left.noComparison_printAt right.noComparison_printAt
        have hblank : [' '].all isBlank = true := by decide
        have hstripLeft := strip_before (left.shape_printAt 4).trimmed hblank
        have hstripRight := strip_behind (right.shape_printAt 4).trimmed hblank
        have hleft := readOperand_printAt hstripLeft (hnested.mono (by simp))
        have hright := readOperand_printAt hstripRight (hnested.mono (by simp; omega))
        rw [List.singleton_append] at hright
        simp only [readComparison, hcut, hleft, hright]
        rfl
    | joined keyword first second others =>
        exact absurd hlevel (by cases keyword <;> simp [Tree.level, Keyword.level])
    | _ => exact absurd hlevel (by simp [Tree.level])
  · rw [← Tree.printAt_succ_of_ne hlevel] at hnested ⊢
    rw [readComparison, comparison?_of_topAll tree.noComparison_printAt]
    exact readOperand_printAt (strip_of_trimmed (tree.shape_printAt 4).trimmed) hnested

/-- The negations in front of a text are those around a tree that is no negation itself. -/
theorem takeNots_printAt {bound : Nat} {text : List Char} (hstrip : strip text = tree.printAt 2)
    (hbound : (tree.printAt 2).length ≤ bound) :
    ∃ (count : Nat) (core : Tree), takeNots bound text = (count, core.printAt 3) ∧
      negated count core.toTerm = tree.toTerm ∧
      (core.printAt 3).length ≤ (tree.printAt 2).length := by
  -- Each negation takes more than one character, so the length of the text bounds their number.
  induction bound generalizing tree text with
  | zero =>
      have hne := (tree.shape_printAt 2).trimmed.ne_nil
      exact absurd (List.length_eq_zero_iff.mp (Nat.le_zero.mp hbound)) hne
  | succ bound ih =>
      by_cases hlevel : tree.level = 2
      · cases tree with
        | not operand =>
            have hprint : (Tree.not operand).printAt 2 =
                ['N', 'O', 'T'] ++ ' ' :: operand.printAt 2 :=
              Tree.printAt_of_le (by rw [hlevel])
            rw [hprint] at hstrip hbound ⊢
            have hblank : [' '].all isBlank = true := by decide
            have hrest := strip_behind (operand.shape_printAt 2).trimmed hblank
            rw [List.singleton_append] at hrest
            have hlength : (operand.printAt 2).length ≤ bound := by
              simp only [List.length_append, List.length_cons] at hbound
              omega
            obtain ⟨count, core, htake, hnegated, hcore⟩ := ih hrest hlength
            refine ⟨count + 1, core, ?_, ?_, ?_⟩
            · simp [takeNots, hstrip, beginsNot, beginsWith, htake]
            · rw [negated, hnegated, Tree.toTerm]
            · simp only [List.length_append, List.length_cons]
              omega
        | joined keyword first second others =>
            exact absurd hlevel (by cases keyword <;> simp [Tree.level, Keyword.level])
        | _ => exact absurd hlevel (by simp [Tree.level])
      · have hprint := Tree.printAt_succ_of_ne hlevel
        have hnot := tree.noNot_printAt_three [] rfl
        rw [List.append_nil, hprint] at hnot
        refine ⟨0, tree, ?_, rfl, by rw [hprint]⟩
        simp [takeNots, hstrip, hnot, hprint]

theorem readNegation_printAt (hnested : ReadsBelow (tree.printAt 2).length nested) :
    readNegation nested (tree.printAt 2) = .ok tree.toTerm := by
  obtain ⟨count, core, htake, hnegated, hcore⟩ := takeNots_printAt
    (strip_of_trimmed (tree.shape_printAt 2).trimmed) (Nat.le_refl (tree.printAt 2).length)
  have hread := readComparison_printAt (hnested.mono hcore)
  rw [← hnegated]
  simp only [readNegation, htake, hread]
  rfl

/-! ## Keywords -/

theorem Keyword.level_injective {keyword other : Keyword} (hlevel : keyword.level = other.level) :
    keyword = other := by
  cases keyword <;> cases other <;> first | rfl | exact absurd hlevel (by decide)

theorem readJoined_of_free {keyword : Keyword} {text : List Char} (htext : keyword.Free text)
    (operator : String) (part : List Char → Except Malformed Term) :
    readJoined keyword operator part text = part text := by
  rw [readJoined, Keyword.split_of_free htext]

/-- Two parts or more, none of them blank, are read one by one. -/
theorem readJoined_of_split {keyword : Keyword} {operator : String}
    {part : List Char → Except Malformed Term} {text : List Char} {parts : List (List Char)}
    (hsplit : (keyword.split text).map strip = parts) (hlength : 2 ≤ parts.length)
    (htrimmed : ∀ text ∈ parts, Trimmed text) :
    readJoined keyword operator part text = (parts.mapM part).map (.call operator) := by
  have hany : (keyword.split text).any (fun p => (strip p).isEmpty) = false := by
    rw [List.any_eq_false]
    intro p hp
    have hne := (htrimmed (strip p) (hsplit ▸ List.mem_map_of_mem hp)).ne_nil
    simpa using hne
  have hmap : ((keyword.split text).mapM fun p => part (strip p)) = parts.mapM part := by
    rw [← hsplit]
    exact List.mapM_map.symm
  rw [← hsplit, List.length_map] at hlength
  rw [readJoined, ← hmap]
  generalize keyword.split text = cut at hany hlength ⊢
  rcases cut with _ | ⟨a, _ | ⟨b, rest⟩⟩
  · exact absurd hlength (by decide)
  · exact absurd hlength (by simp)
  · simp only [hany, Bool.false_eq_true, if_false]
    rfl

/-- A reader of parts reads the text of every tree that is no longer than a text. -/
theorem readJoined_printAt (keyword : Keyword) {part : List Char → Except Malformed Term}
    (hpart : ∀ operand : Tree,
      (operand.printAt (keyword.level + 1)).length ≤ (tree.printAt keyword.level).length →
        part (operand.printAt (keyword.level + 1)) = .ok operand.toTerm) :
    readJoined keyword keyword.operator part (tree.printAt keyword.level) = .ok tree.toTerm := by
  -- Unless the tree is joined by this keyword, its text is free of it and is the only part.
  by_cases hlevel : tree.level = keyword.level
  · cases tree with
    | joined other first second others =>
        obtain rfl := Keyword.level_injective hlevel
        have hprint : (Tree.joined other first second others).printAt other.level =
            other.separator.intercalate
              ((first :: second :: others).map (Tree.printAt (other.level + 1))) := by
          rw [Tree.printAt_of_le (Nat.le_of_eq hlevel.symm), ← Tree.printEach_eq_map]
          rfl
        rw [hprint] at hpart ⊢
        have hshape : ∀ text ∈ (first :: second :: others).map (Tree.printAt (other.level + 1)),
            Tree.Shape text :=
          List.forall_mem_map.mpr fun operand _ => operand.shape_printAt _
        have hfree : ∀ text ∈ (first :: second :: others).map (Tree.printAt (other.level + 1)),
            other.Free text :=
          List.forall_mem_map.mpr fun operand _ =>
            Tree.free_grouped (Nat.lt_succ_self other.level) operand.free_print
        have hsplit := Keyword.map_strip_split_intercalate
          (List.map_eq_nil_iff.not.mpr (List.cons_ne_nil first (second :: others)))
          (fun text htext => (hshape text htext).balanced) hfree
          fun text htext => (hshape text htext).trimmed
        rw [readJoined_of_split hsplit (by simp) fun text htext => (hshape text htext).trimmed]
        have hread : ∀ operand ∈ first :: second :: others,
            part (operand.printAt (other.level + 1)) = .ok operand.toTerm := by
          intro operand hoperand
          exact hpart operand (length_le_intercalate _ (List.mem_map_of_mem hoperand))
        rw [mapM_eq_ok hread, Tree.toTerm, Tree.toTerms_eq_map]
        rfl
    | _ => exact absurd hlevel (by cases keyword <;> simp [Tree.level, Keyword.level])
  · have hfree : keyword.Free (tree.printAt (keyword.level + 1)) :=
      Tree.free_grouped (by omega) tree.free_print
    have hprint := Tree.printAt_succ_of_ne hlevel
    have hread := hpart tree (by rw [hprint])
    rw [hprint] at hfree hread
    rw [readJoined_of_free hfree]
    exact hread

theorem readConjunction_printAt (hnested : ReadsBelow (tree.printAt 1).length nested) :
    readConjunction nested (tree.printAt 1) = .ok tree.toTerm :=
  readJoined_printAt .and fun _ hlength => readNegation_printAt (hnested.mono hlength)

theorem readDisjunction_print (hnested : ReadsBelow tree.print.length nested) :
    readDisjunction nested tree.print = .ok tree.toTerm :=
  readJoined_printAt .or fun _ hlength =>
    readConjunction_printAt (hnested.mono hlength)

end Levels

/-! ## Conditions -/

theorem readWithin_readsBelow (bound : Nat) : ReadsBelow bound (readWithin bound) := by
  induction bound with
  | zero => exact fun tree htree => absurd htree (Nat.not_lt_zero _)
  | succ bound ih =>
      intro tree htree
      exact readDisjunction_print (ih.mono (Nat.le_of_lt_succ htree))

theorem read_print (tree : Tree) : read tree.print = .ok tree.toTerm := by
  have htrimmed := tree.shape_print.trimmed
  have hstrip := strip_of_trimmed htrimmed
  have hne : tree.print.isEmpty = false := List.isEmpty_eq_false_iff.mpr htrimmed.ne_nil
  simp only [read, hstrip, hne, Bool.false_eq_true, if_false]
  exact readWithin_readsBelow _ tree (Nat.lt_succ_self _)

/-- Every tree is read back from its text, whatever its operators, names and nesting. -/
theorem ofTerm_print (tree : Tree) :
    ofTerm (.str (String.ofList tree.print)) = .ok tree.toTerm := by
  have hread := read_print tree
  simpa [ofTerm, Term.text?] using hread

example : String.ofList (Tree.not (.joined .or (.compare .less (.int (-1)) .null) (.bool true)
    [.text ⟨'"', "OR", by decide, by decide⟩])).print = "NOT (-1 < None OR True OR \"OR\")" := by
  decide

end Condition
end Rulebook
