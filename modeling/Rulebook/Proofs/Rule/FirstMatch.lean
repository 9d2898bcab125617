import Rulebook.Proofs.Rule.Firing
import Rulebook.Rule.Engine

/-!
# Up to the first match

Whether one match is wanted or all of them, rules are tried alike up to the first match.  The search
for it passes over the rules that give nothing, and it ends with the match, with a rule that halts,
or with the rules.  A run that wants one match is this search.  A run that wants all of them is this
search too, and goes on with the rules that the search has left, from the store that it has left.
-/

namespace Rulebook

namespace Runner

/-- The search for the first match: what comes of it, the store that it leaves, and the rules that
it leaves untried. -/
inductive Search (runner : Runner) (frame : FrameId) :
    List Rule → Store → Except Halt (Option RuleMatch) → Store → List Rule → Prop where
  | nil (store : Store) : Search runner frame [] store (.ok none) store []
  | passed {rule : Rule} {rules rest : List Rule} {store next after : Store}
      {outcome : Except Halt (Option RuleMatch)}
      (happly : runner.applyRule rule frame store = (.ok .null, next))
      (hsearch : Search runner frame rules next outcome after rest) :
      Search runner frame (rule :: rules) store outcome after rest
  | found {rule : Rule} {rest : List Rule} {value : Term} {store after : Store}
      (happly : runner.applyRule rule frame store = (.ok value, after)) (hvalue : value ≠ .null) :
      Search runner frame (rule :: rest) store
        (.ok (some { rule := rule.id, result := value, note := rule.note })) after rest
  | halted {rule : Rule} {rest : List Rule} {halt : Halt} {store after : Store}
      (happly : runner.applyRule rule frame store = (.error halt, after)) :
      Search runner frame (rule :: rest) store (.error halt) after rest

variable {runner : Runner} {frame : FrameId} {rules rest : List Rule} {store after : Store}
  {outcome : Except Halt (Option RuleMatch)}

theorem exists_search (runner : Runner) (frame : FrameId) (rules : List Rule) (store : Store) :
    ∃ outcome after rest, Search runner frame rules store outcome after rest := by
  induction rules generalizing store with
  | nil => exact ⟨_, _, _, .nil store⟩
  | cons rule rules ih =>
      rcases happly : runner.applyRule rule frame store with ⟨halt | value, next⟩
      · exact ⟨_, _, _, .halted happly⟩
      · by_cases hvalue : value = .null
        · subst hvalue
          obtain ⟨outcome, after, rest, hsearch⟩ := ih next
          exact ⟨outcome, after, rest, .passed happly hsearch⟩
        · exact ⟨_, _, _, .found happly hvalue⟩

theorem tryRules_cons_of_ne {onlyFirst : Bool} {rule : Rule} {value : Term}
    (happly : runner.applyRule rule frame store = (.ok value, after)) (hvalue : value ≠ .null) :
    runner.tryRules onlyFirst frame (rule :: rest) store =
      if onlyFirst then (.ok [{ rule := rule.id, result := value, note := rule.note }], after)
      else (({ rule := rule.id, result := value, note := rule.note } :: ·) <$>
        runner.tryRules false frame rest) after := by
  rw [tryRules, Run.bind_of_ok happly]
  split
  · exact absurd rfl hvalue
  · split_ifs with honly
    · rfl
    · rw [Bool.not_eq_true] at honly
      rw [honly, map_eq_pure_bind]

/-- A run that wants one match is the search for it. -/
theorem Search.tryRules_true (hsearch : Search runner frame rules store outcome after rest) :
    runner.tryRules true frame rules store = (outcome.map Option.toList, after) := by
  induction hsearch with
  | nil store => rfl
  | passed happly _ ih =>
      rw [tryRules, Run.bind_of_ok happly]
      exact ih
  | found happly hvalue => rw [tryRules_cons_of_ne happly hvalue]; rfl
  | halted happly => rw [tryRules, Run.bind_of_halt happly]; rfl

/-- What follows the search for the first match when all matches are wanted. -/
def resume (runner : Runner) (frame : FrameId) (rest : List Rule) :
    Except Halt (Option RuleMatch) → Run (List RuleMatch)
  | .ok none => pure []
  | .ok (some first) => (first :: ·) <$> runner.tryRules false frame rest
  | .error halt => throw halt

/-- A run that wants all matches is the search for the first one, and goes on from there. -/
theorem Search.tryRules_false (hsearch : Search runner frame rules store outcome after rest) :
    runner.tryRules false frame rules store = runner.resume frame rest outcome after := by
  induction hsearch with
  | nil store => rfl
  | passed happly _ ih =>
      rw [tryRules, Run.bind_of_ok happly]
      exact ih
  | found happly hvalue => rw [tryRules_cons_of_ne happly hvalue]; rfl
  | halted happly => rw [tryRules, Run.bind_of_halt happly]; rfl

/-- Rules that are searched in vain may have others behind them. -/
theorem Search.append_of_none {others more : List Rule} {next : Store}
    (hfront : Search runner frame rules store (.ok none) next rest)
    (hothers : Search runner frame others next outcome after more) :
    Search runner frame (rules ++ others) store outcome after more := by
  generalize hnone : (.ok none : Except Halt (Option RuleMatch)) = found at hfront
  induction hfront with
  | nil store => exact hothers
  | passed happly _ ih => exact .passed happly (ih hothers hnone)
  | found happly hvalue => cases hnone
  | halted happly => cases hnone

/-- Rules behind the first match are not tried. -/
theorem Search.append_of_some {first : RuleMatch}
    (hfront : Search runner frame rules store (.ok (some first)) after rest) (others : List Rule) :
    Search runner frame (rules ++ others) store (.ok (some first)) after (rest ++ others) := by
  generalize hsome : (.ok (some first) : Except Halt (Option RuleMatch)) = found at hfront ⊢
  induction hfront with
  | nil store => cases hsome
  | passed happly _ ih => exact .passed happly (ih hsome)
  | found happly hvalue => exact .found happly hvalue
  | halted happly => cases hsome

/-- If a run that wants all matches halts, it does so at one of its rules. -/
theorem tryRules_halts {halt : Halt}
    (hrun : runner.tryRules false frame rules store = (.error halt, after)) :
    ∃ front rule back found before, rules = front ++ rule :: back ∧
      runner.tryRules false frame front store = (.ok found, before) ∧
      runner.applyRule rule frame before = (.error halt, after) := by
  induction rules generalizing store with
  | nil => cases hrun
  | cons rule rules ih =>
      rcases happly : runner.applyRule rule frame store with ⟨_ | value, next⟩
      · rw [tryRules, Run.bind_of_halt happly] at hrun
        cases hrun
        exact ⟨[], rule, rules, [], store, rfl, rfl, happly⟩
      · by_cases hvalue : value = .null
        · subst hvalue
          rw [tryRules, Run.bind_of_ok happly] at hrun
          obtain ⟨front, last, back, found, before, rfl, hfront, hlast⟩ := ih hrun
          refine ⟨rule :: front, last, back, found, before, rfl, ?_, hlast⟩
          rw [tryRules, Run.bind_of_ok happly]
          exact hfront
        · rw [tryRules_cons_of_ne happly hvalue] at hrun
          obtain ⟨front, last, back, found, before, rfl, hfront, hlast⟩ := ih (Run.map_eq_halt hrun)
          refine ⟨rule :: front, last, back,
            { rule := rule.id, result := value, note := rule.note } :: found, before, rfl, ?_,
            hlast⟩
          rw [tryRules_cons_of_ne happly hvalue]
          exact Run.map_of_ok hfront _

/-! ## Sets of rules -/

theorem evaluateRules_allMatch (runner : Runner) (rules : List Rule) (frame : FrameId) :
    runner.evaluateRules rules frame .allMatch .firstWins =
      (fun found => { found }) <$> runner.tryRules false frame rules := by
  rw [evaluateRules, map_eq_pure_bind]
  congr 1
  funext found
  split_ifs <;> rfl

theorem Search.evaluateRules_firstMatch
    (hsearch : Search runner frame rules store outcome after rest)
    (resolution : ConflictResolution) :
    runner.evaluateRules rules frame .firstMatch resolution store =
      (outcome.map fun first => { found := first.toList }, after) := by
  have htry := hsearch.tryRules_true
  rw [evaluateRules]
  rcases outcome with halt | _ | first
  · exact Run.bind_of_halt htry _
  · exact Run.bind_of_ok htry _
  · exact Run.bind_of_ok htry _

/-- All matches are collected, and whether they disagree does not matter. -/
def Collects (runner : Runner) (frame : FrameId) (rules : List Rule) (store : Store)
    (found : List RuleMatch) (after : Store) : Prop :=
  runner.evaluateRules rules frame .allMatch .firstWins store = (.ok { found }, after)

theorem collects_iff {found : List RuleMatch} : runner.Collects frame rules store found after ↔
    runner.tryRules false frame rules store = (.ok found, after) := by
  rw [Collects, evaluateRules_allMatch]
  constructor
  · intro hrun
    obtain ⟨others, htry, heq⟩ := Run.map_eq_ok hrun
    rw [htry, (RuleOutcome.mk.inj heq).2.1]
  · exact fun htry => Run.map_of_ok htry _

/-- What is collected begins with the match that the search ends with. -/
theorem Search.of_collects {found : List RuleMatch}
    (hcollects : runner.Collects frame rules store found after) :
    ∃ middle rest, Search runner frame rules store (.ok found.head?) middle rest ∧
      (found = [] → middle = after) ∧
      ∀ first others, found = first :: others → runner.Collects frame rest middle others after := by
  rw [collects_iff] at hcollects
  obtain ⟨outcome, middle, rest, hsearch⟩ := exists_search runner frame rules store
  have htry := hsearch.tryRules_false.symm.trans hcollects
  rcases outcome with halt | _ | first
  · cases htry
  · cases htry
    exact ⟨_, _, hsearch, fun _ => rfl, nofun⟩
  · obtain ⟨others, hothers, rfl⟩ := Run.map_eq_ok htry
    refine ⟨_, _, hsearch, nofun, ?_⟩
    rintro _ _ ⟨⟩
    exact collects_iff.mpr hothers

end Runner

theorem Engine.findApplicable_of_ok {engine : Engine} {machine : Machine} {bound : Nat}
    {outer frame : FrameId} {bindings : Bindings} {start store after : Store}
    {outcome : RuleOutcome} (hscope : Engine.scope outer bindings start = (.ok frame, store))
    (hrun : (engine.runner machine bound).evaluateRules engine.rules frame
      engine.settings.matchStrategy engine.settings.conflictResolution store =
        (.ok outcome, after)) (hsuccess : outcome.success = true) :
    engine.findApplicable machine bound outer bindings start =
      (.ok ((outcome.first?.map RuleMatch.result).getD .null), after) := by
  have hobserve : Run.observe ((engine.runner machine bound).evaluateRules engine.rules frame
      engine.settings.matchStrategy engine.settings.conflictResolution) store =
        (.ok (.ok outcome), after) := by
    rw [Run.observe, hrun]
  have hevaluate : engine.evaluate machine bound outer bindings start = (.ok outcome, after) := by
    rw [evaluate, Run.bind_of_ok hscope, Run.bind_of_ok hobserve]
    rfl
  rw [findApplicable, Run.bind_of_ok hevaluate, if_pos hsuccess]
  rfl

namespace Runner

/-- The one match that is wanted is the first of all matches, and the rules behind it do not matter.
If trying all rules halts, then trying them for one match halts in the same way, unless a rule
before has given a match.  What an engine finds is what the match gave. -/
theorem firstMatch_of_allMatch (runner : Runner) (rules : List Rule) (frame : FrameId)
    (store : Store) :
    (∀ outcome after,
      runner.evaluateRules rules frame .allMatch .firstWins store = (.ok outcome, after) →
        ∃ middle rest,
          (∀ resolution, runner.evaluateRules rules frame .firstMatch resolution store =
            (.ok { found := outcome.found.take 1 }, middle)) ∧
          runner.Search frame rules store (.ok outcome.found.head?) middle rest ∧
          (outcome.found = [] → middle = after) ∧
          ∀ first others, outcome.found = first :: others →
            runner.Collects frame rest middle others after) ∧
    (∀ halt after,
      runner.evaluateRules rules frame .allMatch .firstWins store = (.error halt, after) →
        ∃ front rule back found before, rules = front ++ rule :: back ∧
          runner.Collects frame front store found before ∧
          runner.applyRule rule frame before = (.error halt, after) ∧
          (found = [] → ∀ resolution,
            runner.evaluateRules rules frame .firstMatch resolution store =
              (.error halt, after)) ∧
          ∀ first others, found = first :: others → ∃ middle rest,
            (∀ resolution, runner.evaluateRules rules frame .firstMatch resolution store =
              (.ok { found := [first] }, middle)) ∧
            runner.Search frame front store (.ok (some first)) middle rest ∧
            runner.Collects frame rest middle others before) ∧
    ∀ (settings : Settings) (outer : FrameId) (bindings : Bindings) (start : Store),
      settings.matchStrategy = .firstMatch →
      Engine.scope outer bindings start = (.ok frame, store) →
      ∀ outcome middle,
        runner.evaluateRules rules frame .firstMatch settings.conflictResolution store =
          (.ok outcome, middle) →
        Engine.findApplicable { rules, settings, evaluator := runner.evaluator } runner.machine
          runner.bound outer bindings start =
            (.ok ((outcome.first?.map RuleMatch.result).getD .null), middle) := by
  refine ⟨?_, ?_, ?_⟩
  · intro outcome after hrun
    have hmap := hrun
    rw [evaluateRules_allMatch] at hmap
    obtain ⟨found, htry, rfl⟩ := Run.map_eq_ok hmap
    obtain ⟨middle, rest, hsearch, hnil, hcons⟩ := Search.of_collects hrun
    refine ⟨middle, rest, ?_, hsearch, hnil, hcons⟩
    intro resolution
    rw [hsearch.evaluateRules_firstMatch]
    cases found <;> rfl
  · intro halt after hrun
    rw [evaluateRules_allMatch] at hrun
    obtain ⟨front, rule, back, found, before, rfl, hfront, hrule⟩ :=
      tryRules_halts (Run.map_eq_halt hrun)
    have hcollects := collects_iff.mpr hfront
    obtain ⟨middle, rest, hsearch, hnil, hcons⟩ := Search.of_collects hcollects
    refine ⟨front, rule, back, found, before, rfl, hcollects, hrule, ?_, ?_⟩
    · rintro rfl resolution
      obtain rfl := hnil rfl
      exact (hsearch.append_of_none (.halted hrule)).evaluateRules_firstMatch resolution
    · rintro first others rfl
      refine ⟨middle, rest, ?_, hsearch, hcons first others rfl⟩
      intro resolution
      exact (hsearch.append_of_some (rule :: back)).evaluateRules_firstMatch resolution
  · intro settings outer bindings start hstrategy hscope outcome middle hrun
    have hrun' := hrun
    obtain ⟨found, search, rest, hsearch⟩ := exists_search runner frame rules store
    rw [hsearch.evaluateRules_firstMatch] at hrun'
    have hsuccess : outcome.success = true := by
      rcases found with halt | first
      · cases hrun'
      · cases hrun'
        rfl
    apply Engine.findApplicable_of_ok hscope _ hsuccess
    rw [hstrategy]
    exact hrun

/-- Gives nothing, but binds a name. -/
def bindingRule : Rule :=
  { firingRule "bind" .null with condition := .definition "seen" (.str "old") }

/-- Gives the value of the name. -/
def seeingRule : Rule :=
  firingRule "see" (.variable "seen")

/-- Gives the name another value. -/
def rebindingRule : Rule :=
  firingRule "rebind" (.assignment "seen" (.str "new"))

def smallRunner : Runner :=
  { plainRunner with bound := 2 }

def emptyRoot : Store where
  frames := #[{}]

/-- The match of the second rule, which sees what the first rule has bound. -/
def seenMatch : RuleMatch where
  rule := "see"
  result := .str "old"
  note := .described {}

/-- The third rule does not matter to the first match, nor to the frames that it leaves. -/
theorem firstMatch_of_allMatch_seen :
    let rules := [bindingRule, seeingRule, rebindingRule]
    ∃ outcome after middle,
      smallRunner.evaluateRules rules 0 .allMatch .firstWins emptyRoot = (.ok outcome, after) ∧
      outcome.found.length = 2 ∧ after.lookup? 0 "seen" = some (.str "new") ∧
      smallRunner.evaluateRules rules 0 .firstMatch .error emptyRoot =
        (.ok { found := [seenMatch] }, middle) ∧ middle.lookup? 0 "seen" = some (.str "old") ∧
      Engine.findApplicable { rules, settings := {}, evaluator := 0 } smallRunner.machine 2 0 []
        emptyRoot = (.ok (.str "old"), middle) := by
  intro rules
  obtain ⟨hall, -, happlicable⟩ := firstMatch_of_allMatch smallRunner rules 0 emptyRoot
  obtain ⟨middle, rest, hfirst, -⟩ := hall _ _ rfl
  have hmiddle : middle = (smallRunner.evaluateRules rules 0 .firstMatch .error emptyRoot).2 := by
    rw [hfirst]
  refine ⟨_, _, middle, rfl, rfl, rfl, hfirst .error, ?_, ?_⟩
  · rw [hmiddle]
    rfl
  · exact happlicable {} 0 [] emptyRoot rfl rfl _ _ (hfirst _)

end Runner
end Rulebook
