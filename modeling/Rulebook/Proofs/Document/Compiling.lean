import Rulebook.Proofs.Document.Checked
import Rulebook.Proofs.Form.Rejected
import Rulebook.Rule.Engine

/-!
# Compiling documents

The definitions of a document are compiled one after another.  Either all of them become rules, which
stand in the same order and are found again by their names, or the first that does not compile is
named in the message.
-/

namespace Rulebook

open Term

/-! ## One definition -/

namespace RuleDefinition

/-- A definition is compiled to a rule. -/
structure Compiles (definition : RuleDefinition) (rule : Rule) : Prop where
  id : rule.id = definition.id
  priority : rule.priority = definition.priority
  note : rule.note = .described definition.metadata
  condition : compilePart definition.condition = .ok rule.condition
  action : compilePart definition.action = .ok rule.action

/-- What is wrong with a definition that is not compiled.  Its condition is compiled first. -/
inductive Fails (definition : RuleDefinition) : Malformed → Prop
  | condition {problem : Malformed} (hcondition : compilePart definition.condition = .error problem) :
      Fails definition problem
  | action {problem : Malformed} {condition : Term}
      (hcondition : compilePart definition.condition = .ok condition)
      (haction : compilePart definition.action = .error problem) : Fails definition problem

theorem Fails.not_compiles {definition : RuleDefinition} {problem : Malformed}
    (hfails : definition.Fails problem) (rule : Rule) : ¬ definition.Compiles rule := by
  intro hcompiles
  cases hfails with
  | condition hcondition =>
      rw [hcompiles.condition] at hcondition
      cases hcondition
  | action _ haction =>
      rw [hcompiles.action] at haction
      cases haction

theorem compile_eq_ok_iff {definition : RuleDefinition} {rule : Rule} :
    definition.compile = .ok rule ↔ definition.Compiles rule := by
  constructor
  · intro hrule
    unfold compile at hrule
    simp only at hrule
    split at hrule
    · cases hrule
    · rename_i condition action hparts
      cases hrule
      obtain ⟨first, hcondition, hrest⟩ := exists_of_bind_eq_ok hparts
      obtain ⟨second, haction, hpair⟩ := exists_of_bind_eq_ok hrest
      cases hpair
      exact ⟨rfl, rfl, rfl, hcondition, haction⟩
  · intro hcompiles
    obtain ⟨id, condition, action, note, priority⟩ := rule
    obtain ⟨rfl, rfl, rfl, hcondition, haction⟩ := hcompiles
    simp only [compile, hcondition, haction]
    rfl

theorem exists_of_compile_eq_error {definition : RuleDefinition} {error : LoadError}
    (herror : definition.compile = .error error) :
    ∃ problem, definition.Fails problem ∧ error = .malformed definition.id problem := by
  unfold compile at herror
  simp only at herror
  split at herror
  · rename_i problem hparts
    cases herror
    rcases bind_eq_error hparts with hcondition | ⟨condition, hcondition, hrest⟩
    · exact ⟨problem, .condition hcondition, rfl⟩
    · rcases bind_eq_error hrest with haction | ⟨action, -, hpair⟩
      · exact ⟨problem, .action hcondition haction, rfl⟩
      · cases hpair
  · cases herror

/-! ## The message -/

theorem not_mem_of_isId {id : List Char} (hid : isId id = true) : '=' ∉ id := by
  have hplain : ∀ {text : List Char}, isPlainId text = true → '=' ∉ text := by
    intro text htext hmem
    cases text with
    | nil => cases hmem
    | cons c rest =>
        rw [isPlainId, Bool.and_eq_true] at htext
        rcases List.mem_cons.mp hmem with rfl | hmem
        · exact absurd htext.1 (by decide)
        · exact absurd (List.all_eq_true.mp htext.2 _ hmem) (by decide)
  intro hmem
  rw [isId, Bool.or_eq_true, Bool.and_eq_true, decide_eq_true_eq] at hid
  rcases hid with hid | ⟨hlast, hid⟩
  · exact hplain hid hmem
  · rw [← List.dropLast_append_getLast? _ hlast] at hmem
    rcases List.mem_append.mp hmem with hmem | hmem
    · exact hplain hid hmem
    · exact absurd hmem (by decide)

end RuleDefinition

/-- Numbers are hidden only behind an equals sign. -/
theorem Text.hideAlong_append {front : List Char} (hfront : '=' ∉ front) {before : List Char}
    (hbefore : before.head? ≠ some '=') (rest : List Char) :
    hideAlong false before (front ++ rest) =
      front ++ hideAlong false (front.reverse ++ before) rest := by
  induction front generalizing before with
  | nil => rfl
  | cons c front ih =>
      rw [List.mem_cons, not_or] at hfront
      have hmark : frameMark.isPrefixOf before = false := by
        cases before with
        | nil => rfl
        | cons d before =>
            have hne : d ≠ '=' := by simpa using hbefore
            rw [frameMark, show "env_id=".toList.reverse = '=' :: "env_id".toList.reverse from rfl,
              List.isPrefixOf_cons_cons]
            simp [Ne.symm hne]
      rw [List.cons_append, hideAlong, hmark, Bool.and_false,
        if_neg Bool.false_ne_true, if_neg Bool.false_ne_true,
        ih hfront.2 (by simpa using Ne.symm hfront.1)]
      simp

/-- The message begins with the name of the rule. -/
theorem LoadError.exists_message? {id : String} (hid : '=' ∉ id.toList) {problem : Malformed}
    (hshown : ∀ got, problem.subject? = some got → got.isShown = true) :
    ∃ explanation, (LoadError.malformed id problem).message? =
      some ("Rule " ++ id ++ ": " ++ explanation) := by
  have htext : problem.shownText? = some problem.text := by
    rw [Malformed.shownText?, if_pos]
    cases hsubject : problem.subject? with
    | none => rfl
    | some got => exact hshown got hsubject
  have hfront : '=' ∉ ("Rule " ++ id ++ ": ").toList := by
    simpa using hid
  refine ⟨String.ofList
    (Text.hideAlong false ("Rule " ++ id ++ ": ").toList.reverse problem.text.toList), ?_⟩
  rw [LoadError.message?, htext, Option.map_some, Text.hideFrameNumbers, String.toList_append,
    Text.hideAlong_append hfront (by simp), List.append_nil, String.ofList_append,
    String.ofList_toList]

/-- What is shown of a definition that does not compile is inside of it. -/
theorem RuleDefinition.Fails.isShown {definition : RuleDefinition} {problem : Malformed}
    (hfails : definition.Fails problem)
    (hcondition : definition.condition.Throughout fun part => part.isShown = true)
    (haction : definition.action.Throughout fun part => part.isShown = true) :
    ∀ got, problem.subject? = some got → got.isShown = true := by
  have hpart : ∀ {data : Term}, data.Throughout (fun part => part.isShown = true) →
      compilePart data = .error problem → ∀ got, problem.subject? = some got →
        got.isShown = true := by
    intro data hdata hproblem got hgot
    unfold compilePart at hproblem
    split at hproblem
    · rw [Condition.subject?_of_ofTerm hproblem] at hgot
      cases hgot
    · exact hdata got ((Form.throughout_showsInside data).self problem got hproblem hgot)
  cases hfails with
  | condition hfailed => exact hpart hcondition hfailed
  | action _ hfailed => exact hpart haction hfailed

/-! ## All definitions -/

/-- Of rules with different names each is found by its own. -/
theorem Rule.find?_of_nodup {rules : List Rule} (hnodup : (rules.map Rule.id).Nodup) {rule : Rule}
    (hrule : rule ∈ rules) : Rule.find? rules rule.id = some rule := by
  unfold find?
  induction rules with
  | nil => cases hrule
  | cons first rest ih =>
      rw [List.map_cons, List.nodup_cons] at hnodup
      rcases List.mem_cons.mp hrule with rfl | hrule
      · simp
      · have hne : first.id ≠ rule.id :=
          fun hid => hnodup.1 (hid ▸ List.mem_map_of_mem hrule)
        rw [List.find?_cons_of_neg (by simpa using hne), ih hnodup.2 hrule]

namespace RuleDocument

theorem compiles_of_compile {document : RuleDocument} {rules : List Rule}
    (hrules : document.compile = .ok rules) :
    List.Forall₂ RuleDefinition.Compiles document.rules rules :=
  (forall₂_of_mapM hrules).imp fun _ _ => RuleDefinition.compile_eq_ok_iff.mp

theorem exists_of_compile_eq_error {document : RuleDocument} {error : LoadError}
    (herror : document.compile = .error error) :
    ∃ before definition after problem, document.rules = before ++ definition :: after ∧
      (∀ other ∈ before, ∃ rule, other.Compiles rule) ∧ definition.Fails problem ∧
      error = .malformed definition.id problem := by
  obtain ⟨before, definition, after, hsplit, hbefore, hfailed⟩ := exists_of_mapM_eq_error herror
  obtain ⟨problem, hfails, hproblem⟩ := RuleDefinition.exists_of_compile_eq_error hfailed
  refine ⟨before, definition, after, problem, hsplit, fun other hother => ?_, hfails, hproblem⟩
  obtain ⟨rule, hrule⟩ := hbefore other hother
  exact ⟨rule, RuleDefinition.compile_eq_ok_iff.mp hrule⟩

theorem ids_eq {definitions : List RuleDefinition} {rules : List Rule}
    (hrules : List.Forall₂ RuleDefinition.Compiles definitions rules) :
    rules.map Rule.id = definitions.map RuleDefinition.id := by
  induction hrules with
  | nil => rfl
  | cons hrule _ ih => rw [List.map_cons, List.map_cons, ih, hrule.id]

section Loaded

variable {content : Term} {document : RuleDocument}

theorem loadRules_eq (hload : load content = .ok document) :
    loadRules content = document.compile.map fun rules => (rules, document.settings) := by
  rw [loadRules, hload]
  change (document.compile >>= fun rules => Except.ok (rules, document.settings)) = _
  cases document.compile <;> rfl

theorem compiles_of_loadRules (hload : load content = .ok document) {rules : List Rule}
    {settings : Settings} (hloaded : loadRules content = .ok (rules, settings)) :
    settings = document.settings ∧ List.Forall₂ RuleDefinition.Compiles document.rules rules := by
  rw [loadRules_eq hload] at hloaded
  obtain ⟨others, hcompile, hpair⟩ := exists_of_map_eq_ok hloaded
  cases hpair
  exact ⟨rfl, compiles_of_compile hcompile⟩

theorem fails_of_loadRules (hload : load content = .ok document) {error : LoadError}
    (herror : loadRules content = .error error) :
    ∃ before definition after problem, document.rules = before ++ definition :: after ∧
      (∀ other ∈ before, ∃ rule, other.Compiles rule) ∧ definition.Fails problem ∧
      error = .malformed definition.id problem := by
  rw [loadRules_eq hload] at herror
  cases hcompile : document.compile with
  | ok rules =>
      rw [hcompile] at herror
      cases herror
  | error failed =>
      rw [hcompile] at herror
      cases herror
      exact exists_of_compile_eq_error hcompile

theorem exists_loadRules_iff (hload : load content = .ok document) :
    (∃ loaded, loadRules content = .ok loaded) ↔
      ∀ definition ∈ document.rules, ∃ rule, definition.Compiles rule := by
  constructor
  · rintro ⟨⟨rules, settings⟩, hloaded⟩ definition hdefinition
    obtain ⟨-, hrules⟩ := compiles_of_loadRules hload hloaded
    obtain ⟨rule, -, hrule⟩ := exists_of_mem_right hrules.flip hdefinition
    exact ⟨rule, hrule⟩
  · intro hall
    cases hloaded : loadRules content with
    | ok loaded => exact ⟨loaded, rfl⟩
    | error error =>
        obtain ⟨before, definition, after, problem, hsplit, -, hfails, -⟩ :=
          fails_of_loadRules hload hloaded
        obtain ⟨rule, hrule⟩ :=
          hall definition (hsplit ▸ List.mem_append_right _ List.mem_cons_self)
        exact absurd hrule (hfails.not_compiles rule)

end Loaded

/-- A document of two rules, the second with an action. -/
def limitAndRate (action : Term) : Term :=
  .mapping [(.str "rules", .list [
    .mapping [(.str "id", .str "limit"), (.str "condition", .str "amount > 10"),
      (.str "action", .str "amount")],
    .mapping [(.str "id", .str "rate"), (.str "condition", .bool true), (.str "action", action)]])]

def limitAndRateDocument (action : Term) : RuleDocument where
  rules := [
    { id := "limit", condition := .str "amount > 10", action := .str "amount",
      given := ["id", "condition", "action"] },
    { id := "rate", condition := .bool true, action := action,
      given := ["id", "condition", "action"] }]
  given := ["rules"]

end RuleDocument

end Rulebook
