import Rulebook.Proofs.Evaluation.Moves
import Rulebook.Rule.Application

/-!
# Which rules are reported

A set of rules is a sequence of trials, each of which leaves the store to the next one.  A trial
shows whether the rule fired, and what its action gave.  The matches of a set of rules are meant to
be the rules that fired.  They are those that fired and gave something else than `null`: a rule
whose action gives `null` is passed over, and under a strategy that wants one match the rules after
it are tried as if it had not fired.
-/

namespace Rulebook

/-- A rule that was tried, with what its action gave if it fired. -/
structure Trial where
  rule : Rule
  result : Option Term

namespace Trial

def fired (trials : List Trial) : List RuleMatch :=
  trials.filterMap fun trial =>
    trial.result.map fun result => { rule := trial.rule.id, result, note := trial.rule.note }

end Trial

def Term.isNull : Term → Bool
  | .null => true
  | _ => false

theorem Term.isNull_iff {term : Term} : term.isNull = true ↔ term = .null := by
  constructor
  · intro hterm
    unfold isNull at hterm
    split at hterm
    · rfl
    · cases hterm
  · rintro rfl
    rfl

namespace Trial

/-- The rules that fired and gave something. -/
def gave (trials : List Trial) : List RuleMatch :=
  (fired trials).filter fun found => !found.result.isNull

theorem gave_append (front back : List Trial) : gave (front ++ back) = gave front ++ gave back := by
  rw [gave, fired, List.filterMap_append, List.filter_append]
  rfl

theorem gave_passed {result : Option Term} (hresult : result.getD .null = .null) (rule : Rule) :
    gave [⟨rule, result⟩] = [] := by
  cases result with
  | none => rfl
  | some value =>
      rw [Option.getD_some] at hresult
      rw [hresult]
      rfl

theorem gave_some {value : Term} (hvalue : value ≠ .null) (rule : Rule) :
    gave [⟨rule, some value⟩] = [{ rule := rule.id, result := value, note := rule.note }] := by
  have hnull : value.isNull = false := by
    rw [Bool.eq_false_iff]
    exact fun heq => hvalue (Term.isNull_iff.mp heq)
  simp [gave, fired, hnull]

/-- Nothing is left out exactly if no rule that fired gave `null`. -/
theorem gave_eq_fired_iff (trials : List Trial) :
    gave trials = fired trials ↔ ∀ found ∈ fired trials, found.result ≠ .null := by
  rw [gave, List.filter_eq_self]
  constructor
  · intro hall found hfound hnull
    have hnot := hall found hfound
    rw [hnull] at hnot
    cases hnot
  · intro hall found hfound
    rw [Bool.not_eq_true', Bool.eq_false_iff]
    exact fun heq => hall found hfound (Term.isNull_iff.mp heq)

end Trial

namespace Runner

/-- Applies a rule and tells a rule that did not fire from one that gave `null`. -/
def fire (runner : Runner) (rule : Rule) (frame : FrameId) : Run (Option Term) := do
  let condition ← runner.evaluate rule.condition frame
  if condition.isTruthy then
    Run.log (.ruleFired rule.id)
    some <$> runner.evaluate rule.action frame
  else
    Run.log (.rulePassed rule.id)
    pure none

theorem applyRule_eq_fire (runner : Runner) (rule : Rule) (frame : FrameId) :
    runner.applyRule rule frame = (fun result => result.getD .null) <$> runner.fire rule frame := by
  rw [applyRule, fire, map_bind]
  congr 1
  funext condition
  split_ifs
  · rw [map_bind]
    simp
  · rw [map_bind]
    simp

/-- Trials one after another, each in the store that the one before left. -/
inductive Tries (runner : Runner) (frame : FrameId) : List Trial → Store → Store → Prop where
  | nil (store : Store) : Tries runner frame [] store store
  | cons {rule : Rule} {result : Option Term} {trials : List Trial} {store next after : Store}
      (hfire : runner.fire rule frame store = (.ok result, next))
      (hrest : Tries runner frame trials next after) :
      Tries runner frame (⟨rule, result⟩ :: trials) store after

end Runner

/-- Rules in the order in which a strategy tries them. -/
def Rule.inOrder (strategy : MatchStrategy) (rules : List Rule) : List Rule :=
  if strategy = .priority then byPriority rules else rules

/-- The matches of a set of rules are those of its trials that count.  The rules are tried in order,
up to the first that counts if only one is wanted and to the end otherwise. -/
structure Reports (counted : List Trial → List RuleMatch) (onlyFirst : Bool) (rules : List Rule)
    (trials : List Trial) (found : List RuleMatch) : Prop where
  inOrder : trials.map Trial.rule <+: rules
  found_eq : found = counted trials
  all : onlyFirst = false ∨ found = [] → trials.map Trial.rule = rules
  stops : onlyFirst = true → counted trials.dropLast = []
  alone : onlyFirst = true → found.length ≤ 1

namespace Reports

variable {onlyFirst : Bool} {rules : List Rule} {trials : List Trial} {found : List RuleMatch}

theorem nil : Reports Trial.gave onlyFirst [] [] [] where
  inOrder := List.nil_prefix
  found_eq := rfl
  all _ := rfl
  stops _ := rfl
  alone _ := Nat.zero_le 1

/-- A rule that gives nothing is passed over. -/
theorem cons_passed {rule : Rule} {result : Option Term} (hresult : result.getD .null = .null)
    (hrest : Reports Trial.gave onlyFirst rules trials found) :
    Reports Trial.gave onlyFirst (rule :: rules) (⟨rule, result⟩ :: trials) found where
  inOrder := by
    rw [List.map_cons, List.prefix_cons_inj]
    exact hrest.inOrder
  found_eq := by
    have happend := Trial.gave_append [⟨rule, result⟩] trials
    rw [List.singleton_append, Trial.gave_passed hresult, List.nil_append] at happend
    rw [happend]
    exact hrest.found_eq
  all hall := by rw [List.map_cons, hrest.all hall]
  stops honly := by
    cases trials with
    | nil => rfl
    | cons next others =>
        have happend := Trial.gave_append [⟨rule, result⟩] (next :: others).dropLast
        rw [Trial.gave_passed hresult, hrest.stops honly, List.append_nil] at happend
        exact happend
  alone := hrest.alone

/-- If one match is wanted, the first rule that gives something ends the trials. -/
theorem first {rule : Rule} {value : Term} (hvalue : value ≠ .null) (rules : List Rule) :
    Reports Trial.gave true (rule :: rules) [⟨rule, some value⟩]
      [{ rule := rule.id, result := value, note := rule.note }] where
  inOrder := by simp
  found_eq := (Trial.gave_some hvalue rule).symm
  all hall := by simp at hall
  stops _ := rfl
  alone _ := Nat.le_refl 1

theorem cons_found {rule : Rule} {value : Term} (hvalue : value ≠ .null)
    (hrest : Reports Trial.gave false rules trials found) :
    Reports Trial.gave false (rule :: rules) (⟨rule, some value⟩ :: trials)
      ({ rule := rule.id, result := value, note := rule.note } :: found) where
  inOrder := by
    rw [List.map_cons, List.prefix_cons_inj]
    exact hrest.inOrder
  found_eq := by
    have happend := Trial.gave_append [⟨rule, some value⟩] trials
    rw [List.singleton_append, Trial.gave_some hvalue, ← hrest.found_eq] at happend
    exact happend.symm
  all _ := by rw [List.map_cons, hrest.all (Or.inl rfl)]
  stops honly := by cases honly
  alone honly := by cases honly

/-- The rules that fired are reported exactly if none of them gave `null`. -/
theorem fired_iff (hreports : Reports Trial.gave onlyFirst rules trials found) :
    Reports Trial.fired onlyFirst rules trials found ↔
      ∀ found ∈ Trial.fired trials, found.result ≠ .null := by
  rw [← Trial.gave_eq_fired_iff]
  constructor
  · intro hfired
    rw [← hreports.found_eq, ← hfired.found_eq]
  · intro heq
    refine ⟨hreports.inOrder, hreports.found_eq.trans heq, hreports.all, ?_, hreports.alone⟩
    intro honly
    have hstops := hreports.stops honly
    have hdropLast : Trial.gave trials.dropLast = Trial.fired trials.dropLast := by
      rw [Trial.gave_eq_fired_iff] at heq ⊢
      intro other hother
      apply heq
      exact List.Sublist.subset ((List.dropLast_sublist trials).filterMap _) hother
    rw [← hdropLast, hstops]

end Reports

namespace Runner

variable {runner : Runner} {rules : List Rule} {frame : FrameId} {store after : Store}

theorem tryRules_reports {onlyFirst : Bool} {found : List RuleMatch}
    (hrun : runner.tryRules onlyFirst frame rules store = (.ok found, after)) :
    ∃ trials, Tries runner frame trials store after ∧
      Reports Trial.gave onlyFirst rules trials found := by
  induction rules generalizing store found with
  | nil =>
      cases hrun
      exact ⟨[], Tries.nil _, Reports.nil⟩
  | cons rule rest ih =>
      rw [tryRules, applyRule_eq_fire] at hrun
      obtain ⟨value, middle, hmap, hnext⟩ := Run.bind_eq_ok hrun
      obtain ⟨result, hfire, hvalue⟩ := Run.map_eq_ok hmap
      split at hnext
      case h_1 =>
        obtain ⟨trials, htries, hreports⟩ := ih hnext
        exact ⟨⟨rule, result⟩ :: trials, Tries.cons hfire htries, hreports.cons_passed hvalue⟩
      case h_2 hnull =>
        have hresult : result = some value := by
          cases result with
          | none => exact absurd hvalue.symm hnull
          | some result => rw [← hvalue, Option.getD_some]
        subst hresult
        split_ifs at hnext with honly
        · cases hnext
          rw [honly]
          exact ⟨[⟨rule, some value⟩], Tries.cons hfire (Tries.nil _), Reports.first hnull rest⟩
        · obtain ⟨others, next, hothers, hfound⟩ := Run.bind_eq_ok hnext
          cases hfound
          obtain ⟨trials, htries, hreports⟩ := ih hothers
          rw [Bool.not_eq_true] at honly
          subst honly
          exact ⟨⟨rule, some value⟩ :: trials, Tries.cons hfire htries, hreports.cons_found hnull⟩

theorem evaluateRules_found {strategy : MatchStrategy} {resolution : ConflictResolution}
    {outcome : RuleOutcome}
    (hrun : runner.evaluateRules rules frame strategy resolution store = (.ok outcome, after)) :
    ∃ before, runner.tryRules (strategy ≠ .allMatch) frame (Rule.inOrder strategy rules) store =
        (.ok outcome.found, before) ∧
      (after = before ∨
        after = before.log (.conflictWarned (outcome.found.map RuleMatch.rule))) := by
  rw [evaluateRules] at hrun
  obtain ⟨found, before, htry, hnext⟩ := Run.bind_eq_ok hrun
  split_ifs at hnext
  · cases resolution with
    | error => cases hnext
    | warn =>
        cases hnext
        exact ⟨before, htry, Or.inr rfl⟩
    | firstWins =>
        cases hnext
        exact ⟨_, htry, Or.inl rfl⟩
  · cases hnext
    exact ⟨_, htry, Or.inl rfl⟩

/-- The matches of a set of rules are the rules that fired and gave something.  So they are all that
fired, and only one match ends the trials at the first rule that fires, exactly if no rule that
fired gave `null`. -/
theorem evaluateRules_reports {strategy : MatchStrategy} {resolution : ConflictResolution}
    {outcome : RuleOutcome}
    (hrun : runner.evaluateRules rules frame strategy resolution store = (.ok outcome, after)) :
    ∃ trials before, Tries runner frame trials store before ∧
      (after = before ∨
        after = before.log (.conflictWarned (outcome.found.map RuleMatch.rule))) ∧
      Reports Trial.gave (strategy ≠ .allMatch) (Rule.inOrder strategy rules) trials outcome.found ∧
      (Reports Trial.fired (strategy ≠ .allMatch) (Rule.inOrder strategy rules) trials
          outcome.found ↔ ∀ found ∈ Trial.fired trials, found.result ≠ .null) := by
  obtain ⟨before, htry, hafter⟩ := evaluateRules_found hrun
  obtain ⟨trials, htries, hreports⟩ := tryRules_reports htry
  exact ⟨trials, before, htries, hafter, hreports, hreports.fired_iff⟩

/-- A machine without host functions, and room for a term that is no node. -/
def plainRunner : Runner where
  machine := { host := fun _ _ => .refuse, limit := fun _ => none }
  bound := 1
  evaluator := 0

def firingRule (id : String) (action : Term) : Rule where
  id := id
  condition := .bool true
  action := action

theorem evaluateRules_reports_priority :
    plainRunner.evaluateRules [firingRule "late" (.str "late"),
      { firingRule "idle" (.str "idle") with condition := .bool false, priority := 1 }] 0 .priority
      .firstWins {} =
        (.ok { found := [{ rule := "late", result := .str "late", note := .described {} }] },
          { trace := #[.rulePassed "idle", .ruleFired "late"] }) ∧
    ∃ trials before, Tries plainRunner 0 trials {} before ∧
      Reports Trial.gave true
        [{ firingRule "idle" (.str "idle") with condition := .bool false, priority := 1 },
          firingRule "late" (.str "late")] trials
        [{ rule := "late", result := .str "late", note := .described {} }] := by
  have hrun : plainRunner.evaluateRules [firingRule "late" (.str "late"),
      { firingRule "idle" (.str "idle") with condition := .bool false, priority := 1 }] 0 .priority
      .firstWins {} =
        (.ok { found := [{ rule := "late", result := .str "late", note := .described {} }] },
          { trace := #[.rulePassed "idle", .ruleFired "late"] }) := by
    rfl
  obtain ⟨trials, before, htries, _, hreports, _⟩ := evaluateRules_reports hrun
  exact ⟨hrun, trials, before, htries, hreports⟩

/-- A rule that fires and gives `null` is not reported, and the one after it is tried. -/
theorem not_reports_null_action :
    (plainRunner.evaluateRules [firingRule "reset" .null, firingRule "late" (.str "late")] 0
      .firstMatch .firstWins {}).1 =
        .ok { found := [{ rule := "late", result := .str "late", note := .described {} }] } ∧
    ∀ trials before, Tries plainRunner 0 trials {} before →
      ¬Reports Trial.fired true [firingRule "reset" .null, firingRule "late" (.str "late")] trials
        [{ rule := "late", result := .str "late", note := .described {} }] := by
  refine ⟨rfl, ?_⟩
  intro trials before htries hreports
  have hfound := hreports.found_eq
  cases htries with
  | nil store => cases hfound
  | cons hfire hrest =>
      have hrule := hreports.inOrder
      rw [List.map_cons, List.cons_prefix_cons] at hrule
      obtain ⟨rfl, _⟩ := hrule
      cases hfire
      simp [Trial.fired, firingRule] at hfound

end Runner

end Rulebook
