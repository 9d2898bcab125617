import Rulebook.Proofs.Condition.Cutting

/-!
# Condition trees

The trees that a condition can be written for, and how they are written.  Names that could be
mistaken for a keyword or a constant, and literals that contain their own quote, cannot be built.
A tree is written with as few parentheses as its operators allow: from the loosest to the tightest
these are `OR`, `AND`, `NOT` and the comparisons, and an operand is what none of them can split.

Every text that is written so is balanced, has no comma at its top, and is free of the keywords
that bind looser than the operator of its tree.
-/

namespace Rulebook
namespace Condition

open Text

def lowered (text : String) : String :=
  String.ofList (text.toList.map Char.toLower)

def operatorWords : List String :=
  ["and", "or", "not"]

def constantWords : List String :=
  ["true", "false", "null", "none"]

/-- The name of a variable, which is neither an operator nor a constant in any case. -/
structure VariableName where
  name : String
  isName : isVariableName name.toList = true
  notOperator : lowered name ∉ operatorWords
  notConstant : lowered name ∉ constantWords

/-- The name of a function, which is no operator in any case. -/
structure FunctionName where
  name : String
  isName : isCallName name.toList = true
  notOperator : lowered name ∉ operatorWords

/-- A text with a quote that it does not contain. -/
structure Literal where
  quote : Char
  content : String
  isQuote : isQuote quote = true
  notContained : quote ∉ content.toList

theorem VariableName.isWord (name : VariableName) : IsWord name.name.toList :=
  isWord_of_isVariableName name.isName

theorem FunctionName.isWord (function : FunctionName) : IsWord function.name.toList :=
  isWord_of_isVariableName (isVariableName_of_isCallName function.isName)

/-- The trees of conditions.  Keywords join two trees or more. -/
inductive Tree where
  | int (n : Int)
  | bool (b : Bool)
  | null
  | text (literal : Literal)
  | named (name : VariableName)
  | call (function : FunctionName) (arguments : List Tree)
  | compare (comparison : Comparison) (left right : Tree)
  | not (operand : Tree)
  | joined (keyword : Keyword) (first second : Tree) (others : List Tree)

def Keyword.operator : Keyword → String
  | .or => "or"
  | .and => "and"

/-- How tightly a keyword binds. -/
def Keyword.level : Keyword → Nat
  | .or => 0
  | .and => 1

namespace Tree

/-- How tightly the operator of a tree binds; four is that of an operand. -/
def level : Tree → Nat
  | .joined keyword _ _ _ => keyword.level
  | .not _ => 2
  | .compare .. => 3
  | _ => 4

mutual

def toTerm : Tree → Term
  | .int n => .int n
  | .bool b => .bool b
  | .null => .null
  | .text literal => .str literal.content
  | .named name => .variable name.name
  | .call function arguments => .call function.name (toTerms arguments)
  | .compare comparison left right => .call comparison.operator [left.toTerm, right.toTerm]
  | .not operand => .call "not" [operand.toTerm]
  | .joined keyword first second others =>
    .call keyword.operator (first.toTerm :: second.toTerm :: toTerms others)
termination_by structural t => t

def toTerms : List Tree → List Term
  | [] => []
  | tree :: rest => tree.toTerm :: toTerms rest
termination_by structural ts => ts

end

/-- A text in parentheses, if what it writes binds looser than needed. -/
def grouped (level needed : Nat) (text : List Char) : List Char :=
  if level < needed then '(' :: text ++ [')'] else text

mutual

def print : Tree → List Char
  | .int n => (toString n).toList
  | .bool true => ['T', 'r', 'u', 'e']
  | .bool false => ['F', 'a', 'l', 's', 'e']
  | .null => ['N', 'o', 'n', 'e']
  | .text literal => literal.quote :: literal.content.toList ++ [literal.quote]
  | .named name => name.name.toList
  | .call function arguments =>
    function.name.toList ++ ('(' :: [',', ' '].intercalate (printEach 0 arguments) ++ [')'])
  | .compare comparison left right =>
    grouped left.level 4 left.print ++
      (' ' :: comparison.symbol ++ ' ' :: grouped right.level 4 right.print)
  | .not operand => ['N', 'O', 'T'] ++ ' ' :: grouped operand.level 2 operand.print
  | .joined keyword first second others =>
    keyword.separator.intercalate
      (grouped first.level (keyword.level + 1) first.print ::
        grouped second.level (keyword.level + 1) second.print ::
          printEach (keyword.level + 1) others)
termination_by structural t => t

def printEach (needed : Nat) : List Tree → List (List Char)
  | [] => []
  | tree :: rest => grouped tree.level needed tree.print :: printEach needed rest
termination_by structural ts => ts

end

/-- The text of a tree where a level is needed. -/
def printAt (needed : Nat) (tree : Tree) : List Char :=
  grouped tree.level needed tree.print

theorem toTerms_eq_map (trees : List Tree) : toTerms trees = trees.map toTerm := by
  induction trees with
  | nil => rfl
  | cons tree rest ih => rw [toTerms, ih, List.map_cons]

theorem printEach_eq_map (needed : Nat) (trees : List Tree) :
    printEach needed trees = trees.map (printAt needed) := by
  induction trees with
  | nil => rfl
  | cons tree rest ih => rw [printEach, ih, List.map_cons, printAt]

theorem forall_mem_printEach {p : List Char → Prop} {needed : Nat} {trees : List Tree}
    (htrees : ∀ tree ∈ trees, p (tree.printAt needed)) :
    ∀ text ∈ printEach needed trees, p text := by
  intro text htext
  rw [printEach_eq_map, List.mem_map] at htext
  obtain ⟨tree, htree, rfl⟩ := htext
  exact htrees tree htree

theorem printAt_zero (tree : Tree) : tree.printAt 0 = tree.print := rfl

/-- Only the level of the operator itself tells a need from the next tighter one. -/
theorem printAt_succ_of_ne {tree : Tree} {needed : Nat} (hlevel : tree.level ≠ needed) :
    tree.printAt (needed + 1) = tree.printAt needed := by
  have hiff : tree.level < needed + 1 ↔ tree.level < needed := by omega
  simp only [printAt, grouped, hiff]

theorem printAt_of_le {tree : Tree} {needed : Nat} (hlevel : needed ≤ tree.level) :
    tree.printAt needed = tree.print := by
  rw [printAt, grouped, if_neg (by omega)]

theorem printAt_of_lt {tree : Tree} {needed : Nat} (hlevel : tree.level < needed) :
    tree.printAt needed = '(' :: tree.print ++ [')'] := by
  rw [printAt, grouped, if_pos hlevel]

def parts : Tree → List Tree
  | .call _ arguments => arguments
  | .compare _ left right => [left, right]
  | .not operand => [operand]
  | .joined _ first second others => first :: second :: others
  | _ => []

theorem sizeOf_lt_of_mem_parts {part tree : Tree} (hpart : part ∈ tree.parts) :
    sizeOf part < sizeOf tree := by
  cases tree with
  | call function arguments =>
      have hlt := List.sizeOf_lt_of_mem hpart
      rw [call.sizeOf_spec]
      simp only [parts] at hlt
      omega
  | compare comparison left right =>
      simp only [parts, List.mem_cons, List.not_mem_nil, or_false] at hpart
      rcases hpart with rfl | rfl <;> rw [compare.sizeOf_spec] <;> omega
  | not operand =>
      simp only [parts, List.mem_singleton] at hpart
      subst hpart
      rw [not.sizeOf_spec]
      omega
  | joined keyword first second others =>
      simp only [parts, List.mem_cons] at hpart
      rw [joined.sizeOf_spec]
      rcases hpart with rfl | rfl | hmem
      · omega
      · omega
      · have hlt := List.sizeOf_lt_of_mem hmem
        omega
  | _ => exact absurd hpart List.not_mem_nil

theorem induct {p : Tree → Prop}
    (h : ∀ tree : Tree, (∀ part ∈ tree.parts, p part) → p tree) (tree : Tree) : p tree :=
  h tree fun part _hpart => induct h part
termination_by sizeOf tree
decreasing_by exact sizeOf_lt_of_mem_parts _hpart

/-! ## The shape of what is written -/

/-- What reading relies on in the text of a tree. -/
structure Shape (text : List Char) : Prop where
  balanced : Balanced text
  trimmed : Trimmed text
  noComma : TopAll (· ≠ ',') text

namespace Shape

theorem word {text : List Char} (htext : IsWord text) : Shape text where
  balanced := htext.balanced
  trimmed := htext.trimmed
  noComma := htext.topAll (by decide)

theorem quoted {q : Char} {content : List Char} (hquote : isQuote q = true)
    (hq : q ∉ content) : Shape (q :: content ++ [q]) where
  balanced := Balanced.quoted hquote hq
  trimmed := by
    have hblank : isBlank q = false := by
      simp only [isQuote, Bool.or_eq_true, decide_eq_true_eq] at hquote
      rcases hquote with rfl | rfl <;> decide
    exact Trimmed.between hblank hblank content
  noComma := TopAll.quoted hquote hq

theorem group {text : List Char} (htext : Balanced text) : Shape ('(' :: text ++ [')']) where
  balanced := htext.group
  trimmed := Trimmed.between (by decide) (by decide) text
  noComma := TopAll.group htext (by decide) (by decide)

theorem grouped {text : List Char} (htext : Shape text) (level needed : Nat) :
    Shape (grouped level needed text) := by
  rw [Tree.grouped]
  split_ifs
  · exact group htext.balanced
  · exact htext

theorem append {front back : List Char} (hfront : Shape front) (hback : Shape back)
    {middle : List Char} (hmiddle : middle.all (fun c => isPlain c && c ≠ ',') = true) :
    Shape (front ++ middle ++ back) := by
  have hplain : middle.all isPlain = true := by
    rw [List.all_eq_true] at hmiddle ⊢
    intro c hc
    exact (Bool.and_eq_true_iff.mp (hmiddle c hc)).1
  have hcomma : middle.all (· ≠ ',') = true := by
    rw [List.all_eq_true] at hmiddle ⊢
    intro c hc
    exact (Bool.and_eq_true_iff.mp (hmiddle c hc)).2
  have hmiddleBalanced := Balanced.of_isPlain hplain
  constructor
  · exact (hfront.balanced.append hmiddleBalanced).append hback.balanced
  · exact hfront.trimmed.append hback.trimmed middle
  · exact TopAll.append (hfront.balanced.append hmiddleBalanced)
      (TopAll.append hfront.balanced hfront.noComma (TopAll.of_all hcomma)) hback.noComma

theorem intercalate {separator : List Char} {texts : List (List Char)}
    (hseparator : separator.all (fun c => isPlain c && c ≠ ',') = true) (hne : texts ≠ [])
    (htexts : ∀ text ∈ texts, Shape text) : Shape (separator.intercalate texts) :=
  intercalate_of_append (fun _ _ hfront hback => hfront.append hback hseparator) hne htexts

end Shape

theorem shape_print (tree : Tree) : Shape tree.print := by
  induction tree using induct with
  | h tree ih =>
      cases tree with
      | int n => exact Shape.word (isWord_int n)
      | bool b => cases b <;> exact Shape.word ⟨by decide, by decide⟩
      | null => exact Shape.word ⟨by decide, by decide⟩
      | text literal => exact Shape.quoted literal.isQuote literal.notContained
      | named name => exact Shape.word (isWord_of_isVariableName name.isName)
      | call function arguments =>
          have harguments : Balanced ([',', ' '].intercalate (printEach 0 arguments)) := by
            apply Balanced.intercalate (Balanced.of_isPlain (by decide))
            exact forall_mem_printEach fun part hpart => (ih part hpart).balanced
          have happend := Shape.append (Shape.word function.isWord)
            (Shape.group harguments) (List.all_eq_true.mpr fun _ hc => absurd hc List.not_mem_nil)
          rwa [List.append_nil] at happend
      | compare comparison left right =>
          have hleft := (ih left (by simp [parts])).grouped left.level 4
          have hright := (ih right (by simp [parts])).grouped right.level 4
          -- No comparison has a quote, a parenthesis or a comma in it.
          have hmiddle : (' ' :: comparison.symbol ++ [' ']).all
              (fun c => isPlain c && c ≠ ',') = true := by
            cases comparison <;> decide
          have happend := hleft.append hright hmiddle
          simpa [print] using happend
      | not operand =>
          have hoperand := (ih operand (by simp [parts])).grouped operand.level 2
          have hword : Shape ['N', 'O', 'T'] := Shape.word ⟨by decide, by decide⟩
          have hmiddle : [' '].all (fun c => isPlain c && c ≠ ',') = true := by decide
          have happend := hword.append hoperand hmiddle
          simpa [print] using happend
      | joined keyword first second others =>
          have hseparator : keyword.separator.all (fun c => isPlain c && c ≠ ',') = true := by
            cases keyword <;> decide
          apply Shape.intercalate hseparator (List.cons_ne_nil _ _)
          have hparts : ∀ text ∈ printEach (keyword.level + 1) (first :: second :: others),
              Shape text :=
            forall_mem_printEach fun part hpart => (ih part hpart).grouped _ _
          exact hparts

theorem shape_printAt (needed : Nat) (tree : Tree) : Shape (tree.printAt needed) :=
  (shape_print tree).grouped _ _

theorem balanced_printEach_intercalate (arguments : List Tree) :
    Balanced ([',', ' '].intercalate (printEach 0 arguments)) :=
  Balanced.intercalate (Balanced.of_isPlain (by decide))
    (forall_mem_printEach fun part _ => (shape_printAt 0 part).balanced)

/-! ## What does not stand at the top -/

theorem toLower_toUpper_of_isWord {text : List Char} (htext : IsWord text) :
    (text.map Char.toUpper).map Char.toLower = text.map Char.toLower := by
  rw [List.map_map]
  apply List.map_congr_left
  intro c hc
  have hchar := isVariableChar_imp (p := fun c => c.toUpper.toLower = c.toLower) (by decide)
    (List.all_eq_true.mp htext.chars c hc)
  exact of_decide_eq_true hchar

/-- A word that is no operator in lower case is none in upper case. -/
theorem toUpper_ne_of_notOperator {name : String} (hword : IsWord name.toList)
    (hname : lowered name ∉ operatorWords) {word : List Char}
    (hoperator : String.ofList (word.map Char.toLower) ∈ operatorWords) :
    name.toList.map Char.toUpper ≠ word := by
  intro heq
  have hlower := toLower_toUpper_of_isWord hword
  rw [heq] at hlower
  rw [lowered, ← hlower] at hname
  exact hname hoperator

theorem keyword_mem_operatorWords (keyword : Keyword) :
    String.ofList (keyword.text.map Char.toLower) ∈ operatorWords := by
  cases keyword <;> decide

/-- A numeral is written without letters. -/
theorem toUpper_int_ne (n : Int) {word : List Char} (hword : word.all Char.isAlpha = true) :
    (toString n).toList.map Char.toUpper ≠ word := by
  intro heq
  obtain ⟨c, rest, htext⟩ := List.exists_cons_of_ne_nil (isWord_int n).ne_nil
  have hc : c ∈ (toString n).toList := htext ▸ List.mem_cons_self
  have hupper : c.toUpper.isAlpha = true := by
    rw [← heq, htext, List.map_cons, List.all_cons, Bool.and_eq_true] at hword
    exact hword.1
  have hnot := isVariableChar_imp
    (p := fun c => !(c = '-' || c.isDigit) || !c.toUpper.isAlpha) (by decide)
    (List.all_eq_true.mp (isWord_int n).chars c hc)
  rcases mem_toList_toString_int hc with rfl | hdigit
  · simp at hnot hupper
  · simp [hdigit, hupper] at hnot

/-- Texts that are free of a keyword can be joined by another one. -/
theorem free_intercalate {keyword other : Keyword} (hne : other.text ≠ keyword.text)
    {texts : List (List Char)} (htexts : texts ≠ []) (hshape : ∀ text ∈ texts, Shape text)
    (hfree : ∀ text ∈ texts, keyword.Free text) :
    keyword.Free (other.separator.intercalate texts) := by
  have hupper : other.text.map Char.toUpper = other.text := by cases other <;> decide
  have hword : keyword.Free other.text :=
    Keyword.Free.word (by cases other <;> exact ⟨by decide, by decide⟩) (by rwa [hupper])
  have hother : Balanced other.text := Balanced.of_isPlain (by cases other <;> decide)
  have hseparator : Balanced other.separator := Balanced.of_isPlain (by cases other <;> decide)
  have hjoined : Balanced (other.separator.intercalate texts) ∧
      keyword.Free (other.separator.intercalate texts) := by
    apply intercalate_of_append (p := fun text => Balanced text ∧ keyword.Free text) _ htexts
    · exact fun text htext => ⟨(hshape text htext).balanced, hfree text htext⟩
    · rintro front back ⟨hfront, hfrontFree⟩ ⟨hback, hbackFree⟩
      refine ⟨(hfront.append hseparator).append hback, ?_⟩
      have hbehind := Keyword.Free.append_cons hother (by decide : isPlain ' ' = true)
        (by decide) hword hbackFree
      have hall := Keyword.Free.append_cons hfront (by decide : isPlain ' ' = true)
        (by decide) hfrontFree hbehind
      simpa [Keyword.separator] using hall
  exact hjoined.2

theorem free_grouped {keyword : Keyword} {tree : Tree} {needed : Nat}
    (hneeded : keyword.level < needed)
    (htree : keyword.level < tree.level → keyword.Free tree.print) :
    keyword.Free (tree.printAt needed) := by
  by_cases hlevel : tree.level < needed
  · rw [printAt_of_lt hlevel]
    exact Keyword.Free.group (shape_print tree).balanced
  · rw [printAt_of_le (by omega)]
    exact htree (by omega)

/-- A keyword that binds looser than the operator of a tree stands nowhere at its top. -/
theorem free_print {keyword : Keyword} (tree : Tree) (hlevel : keyword.level < tree.level) :
    keyword.Free tree.print := by
  induction tree using induct with
  | h tree ih =>
      have hoperator := keyword_mem_operatorWords keyword
      have halpha : keyword.text.all Char.isAlpha = true := by cases keyword <;> decide
      have hkeyword : keyword.level < 2 := by cases keyword <;> decide
      -- A part binds tighter than the operator of its tree, or it stands in parentheses.
      cases tree with
      | int n => exact Keyword.Free.word (isWord_int n) (toUpper_int_ne n halpha)
      | bool b =>
          cases b <;> exact Keyword.Free.word ⟨by decide, by decide⟩ (by cases keyword <;> decide)
      | null => exact Keyword.Free.word ⟨by decide, by decide⟩ (by cases keyword <;> decide)
      | text literal => exact Keyword.Free.quoted literal.isQuote literal.notContained
      | named name =>
          have hword := name.isWord
          exact Keyword.Free.word hword
            (toUpper_ne_of_notOperator hword name.notOperator hoperator)
      | call function arguments =>
          have hword := function.isWord
          exact Keyword.Free.append_group hword.balanced
            (Keyword.Free.word hword
              (toUpper_ne_of_notOperator hword function.notOperator hoperator))
            (balanced_printEach_intercalate arguments)
      | compare comparison left right =>
          have hleft : keyword.Free (left.printAt 4) :=
            free_grouped (by omega) (ih left (by simp [parts]))
          have hright : keyword.Free (right.printAt 4) :=
            free_grouped (by omega) (ih right (by simp [parts]))
          have hall := Keyword.Free.compared comparison (shape_printAt 4 left).balanced hleft hright
          simpa [print, printAt] using hall
      | not operand =>
          have hoperand : keyword.Free (operand.printAt 2) :=
            free_grouped (by omega) (ih operand (by simp [parts]))
          have hword : keyword.Free ['N', 'O', 'T'] :=
            Keyword.Free.word ⟨by decide, by decide⟩ (by cases keyword <;> decide)
          exact Keyword.Free.append_cons (Balanced.of_isPlain (by decide))
            (by decide : isPlain ' ' = true) (by decide) hword hoperand
      | joined other first second others =>
          have hlevel' : keyword.level < other.level := hlevel
          have hne : other.text ≠ keyword.text := by
            cases other <;> cases keyword <;> simp_all [Keyword.level, Keyword.text]
          have hfree : ∀ text ∈ printEach (other.level + 1) (first :: second :: others),
              keyword.Free text :=
            forall_mem_printEach fun part hpart => free_grouped (by omega) (ih part hpart)
          have hshape : ∀ text ∈ printEach (other.level + 1) (first :: second :: others),
              Shape text :=
            forall_mem_printEach fun part _ => shape_printAt _ part
          exact free_intercalate hne (List.cons_ne_nil _ _) hshape hfree

theorem noComparison_print {tree : Tree} (hlevel : tree.level = 4) :
    TopAll (!isComparisonChar ·) tree.print := by
  cases tree with
  | int n => exact (isWord_int n).topAll (by decide)
  | bool b => cases b <;> exact TopAll.of_all (by decide)
  | null => exact TopAll.of_all (by decide)
  | text literal => exact TopAll.quoted literal.isQuote literal.notContained
  | named name => exact name.isWord.topAll (by decide)
  | call function arguments =>
      exact TopAll.append function.isWord.balanced (function.isWord.topAll (by decide))
        (TopAll.group (balanced_printEach_intercalate arguments) (by decide) (by decide))
  | compare comparison left right => exact absurd hlevel (by simp [level])
  | not operand => exact absurd hlevel (by simp [level])
  | joined keyword first second others =>
      exact absurd hlevel (by cases keyword <;> simp [level, Keyword.level])

theorem level_le (tree : Tree) : tree.level ≤ 4 := by
  cases tree with
  | joined keyword first second others => cases keyword <;> simp [level, Keyword.level]
  | _ => simp [level]

theorem noComparison_printAt (tree : Tree) :
    TopAll (!isComparisonChar ·) (tree.printAt 4) := by
  have hle := level_le tree
  by_cases hlevel : tree.level < 4
  · rw [printAt_of_lt hlevel]
    exact TopAll.group (shape_print tree).balanced (by decide) (by decide)
  · rw [printAt_of_le (by omega)]
    exact noComparison_print (by omega)

/-! ## What does not begin with a negation -/

/-- A text that is not taken for a negation, unless it is continued as a word. -/
def NoNot (text : List Char) : Prop :=
  ∀ rest, endsWord rest = true → beginsNot (text ++ rest) = false

theorem noNot_cons {c : Char} {text : List Char} (hc : c.toUpper ≠ 'N') : NoNot (c :: text) := by
  intro rest _
  simp [beginsNot, beginsWith, hc]

theorem noNot_word {word : List Char} (hword : IsWord word)
    (hne : word.map Char.toUpper ≠ ['N', 'O', 'T']) : NoNot word := by
  intro rest hrest
  have hfalse := not_beginsWith_word (by decide) hword hne hrest
  generalize word ++ rest = text at hfalse ⊢
  rw [Bool.eq_false_iff]
  intro hnot
  apply hfalse
  obtain ⟨last, hlast, hbegins⟩ : ∃ last, isNameChar last = false ∧
      (text.take 4).map Char.toUpper = ['N', 'O', 'T', last] := by
    simp only [beginsNot, beginsWith, Bool.or_eq_true, decide_eq_true_eq] at hnot
    rcases hnot with hspace | hparenthesis
    · exact ⟨' ', by decide, hspace⟩
    · exact ⟨'(', by decide, hparenthesis⟩
  rcases text with _ | ⟨a, _ | ⟨b, _ | ⟨c, _ | ⟨d, tail⟩⟩⟩⟩
  case cons.cons.cons.cons =>
    simp only [List.take_succ_cons, List.take_zero, List.map_cons, List.map_nil,
      List.cons.injEq, and_true] at hbegins
    obtain ⟨ha, hb, hc, rfl⟩ := hbegins
    rw [isNameChar_toUpper] at hlast
    simp [beginsWith, endsWord, ha, hb, hc, hlast]
  all_goals simp at hbegins

theorem noNot_append {front back : List Char} (hfront : NoNot front)
    (hback : endsWord back = true) (hne : back ≠ []) : NoNot (front ++ back) := by
  intro rest _
  rw [List.append_assoc]
  apply hfront
  obtain ⟨c, tail, rfl⟩ := List.exists_cons_of_ne_nil hne
  simpa [endsWord] using hback

theorem noNot_print_operand {tree : Tree} (hlevel : tree.level = 4) : NoNot tree.print := by
  have hoperator : String.ofList (['N', 'O', 'T'].map Char.toLower) ∈ operatorWords := by decide
  cases tree with
  | int n => exact noNot_word (isWord_int n) (toUpper_int_ne n (by decide))
  | bool b => cases b <;> exact noNot_word ⟨by decide, by decide⟩ (by decide)
  | null =>
      have hword : IsWord ['N', 'o', 'n', 'e'] := ⟨by decide, by decide⟩
      exact noNot_word hword (by decide)
  | text literal =>
      have hquote := literal.isQuote
      simp only [isQuote, Bool.or_eq_true, decide_eq_true_eq] at hquote
      apply noNot_cons
      rcases hquote with hquote | hquote <;> rw [hquote] <;> decide
  | named name =>
      exact noNot_word name.isWord (toUpper_ne_of_notOperator name.isWord name.notOperator hoperator)
  | call function arguments =>
      apply noNot_append (noNot_word function.isWord
        (toUpper_ne_of_notOperator function.isWord function.notOperator hoperator))
      · simp [endsWord, isNameChar, isAlphanumeric]
      · simp
  | compare comparison left right => exact absurd hlevel (by simp [level])
  | not operand => exact absurd hlevel (by simp [level])
  | joined keyword first second others =>
      exact absurd hlevel (by cases keyword <;> simp [level, Keyword.level])

theorem noNot_printAt_four (tree : Tree) : NoNot (tree.printAt 4) := by
  have hle := level_le tree
  by_cases hlevel : tree.level < 4
  · rw [printAt_of_lt hlevel]
    exact noNot_cons (by decide)
  · rw [printAt_of_le (by omega)]
    exact noNot_print_operand (by omega)

theorem noNot_printAt_three (tree : Tree) : NoNot (tree.printAt 3) := by
  by_cases hlevel : tree.level = 3
  · cases tree with
    | compare comparison left right =>
        rw [printAt_of_le (by omega), print]
        apply noNot_append (noNot_printAt_four left)
        · simp [endsWord, isNameChar, isAlphanumeric]
        · simp
    | joined keyword first second others =>
        exact absurd hlevel (by cases keyword <;> simp [level, Keyword.level])
    | _ => exact absurd hlevel (by simp [level])
  · rw [← printAt_succ_of_ne hlevel]
    exact noNot_printAt_four tree

end Tree

end Condition
end Rulebook
