import Rulebook.Proofs.Evaluation.Discipline
import Rulebook.Rule.Engine

/-!
# Rules under a discipline

A set of rules evaluates conditions and actions one after another, and between them it only adds
events.  So it agrees from two stores if all of its evaluations do, wherever those before them have
led.
-/

namespace Rulebook

namespace Rule

theorem mem_insertByPriority {rule other : Rule} {rules : List Rule}
    (hother : other ∈ insertByPriority rule rules) : other = rule ∨ other ∈ rules := by
  induction rules with
  | nil => exact Or.inl (List.mem_singleton.mp hother)
  | cons first rest ih =>
      rw [insertByPriority] at hother
      split_ifs at hother
      · exact List.mem_cons.mp hother
      · rcases List.mem_cons.mp hother with rfl | hrest
        · exact Or.inr List.mem_cons_self
        · exact (ih hrest).imp_right (List.mem_cons_of_mem first)

theorem mem_of_mem_byPriority {rule : Rule} {rules : List Rule} (hrule : rule ∈ byPriority rules) :
    rule ∈ rules := by
  induction rules with
  | nil => exact hrule
  | cons first rest ih =>
      rcases mem_insertByPriority hrule with rfl | hrest
      · exact List.mem_cons_self
      · exact List.mem_cons_of_mem first (ih hrest)

def accesses (rule : Rule) : List Access :=
  rule.condition.accesses ++ rule.action.accesses

theorem accesses_subset {rule : Rule} {term : Term} (hterm : term ∈ [rule.condition, rule.action]) :
    term.accesses ⊆ rule.accesses := by
  intro access haccess
  rw [accesses, List.mem_append]
  simp only [List.mem_cons, List.not_mem_nil, or_false] at hterm
  rcases hterm with rfl | rfl
  · exact Or.inl haccess
  · exact Or.inr haccess

/-- What rules that are given bindings begin with: the environment, the values that are bound, and
their own expressions. -/
def roots (rules : List Rule) (frame : FrameId) (bindings : Bindings) : List Term :=
  .scope frame ::
    (bindings.map Prod.snd ++ rules.flatMap fun rule => [rule.condition, rule.action])

theorem mem_roots {rules : List Rule} {rule : Rule} (hrule : rule ∈ rules) {term : Term}
    (hterm : term ∈ [rule.condition, rule.action]) (frame : FrameId) (bindings : Bindings) :
    term ∈ roots rules frame bindings := by
  apply List.mem_cons_of_mem
  apply List.mem_append_right
  exact List.mem_flatMap.mpr ⟨rule, hrule, hterm⟩

theorem mem_roots_of_value {bindings : Bindings} {binding : String × Term}
    (hbinding : binding ∈ bindings) (rules : List Rule) (frame : FrameId) :
    binding.2 ∈ roots rules frame bindings := by
  apply List.mem_cons_of_mem
  apply List.mem_append_left
  exact List.mem_map_of_mem hbinding

end Rule

theorem Store.later_extend (store : Store) (frame : FrameId) (bindings : Bindings) :
    Store.Later store (store.extend (some frame) bindings).1 :=
  (Store.Resumes.push store _).toLater

theorem Territory.guards_extend {T : Territory} (hstays : T.Stays) {store : Store}
    {rules : List Rule} {frame : FrameId} {bindings : Bindings}
    (hadmits : ∀ part, store.Reaches (Rule.roots rules frame bindings) part → T.Admits store part) :
    T.Guards (store.Known (Rule.roots rules frame bindings))
      (store.extend (some frame) bindings).1 := by
  apply (Territory.Guards.start hadmits).push hstays _ (Or.inl (.of_mem List.mem_cons_self))
  apply Bindings.forall_insertAll
  · exact fun _ hbinding => absurd hbinding List.not_mem_nil
  · intro pair hpair
    exact Territory.holds_of_reaches hadmits (.of_mem (Rule.mem_roots_of_value hpair rules frame))

theorem Run.extend_bindings (store : Store) (frame : FrameId) (bindings : Bindings) :
    Run.extend (some frame) (bindings.map Prod.fst) (bindings.map Prod.snd) store =
      (.ok store.frames.size, (store.extend (some frame) bindings).1) := by
  have hzip : (bindings.map Prod.fst).zip (bindings.map Prod.snd) = bindings :=
    (List.zip_of_prod rfl rfl).symm
  have hlength : ¬ (bindings.map Prod.fst).length ≠ (bindings.map Prod.snd).length := by simp
  rw [Run.extend, if_neg hlength, hzip]
  rfl

theorem Runner.applyRuleWith_eq (runner : Runner) (rule : Rule) (store : Store) (frame : FrameId)
    (bindings : Bindings) : runner.applyRuleWith rule frame bindings store =
      runner.applyRule rule store.frames.size (store.extend (some frame) bindings).1 :=
  Run.bind_of_ok (Run.extend_bindings store frame bindings) _

/-- Evaluates all rules in the frame that they are evaluated in, and reports a conflict. -/
def Engine.evaluateIn (engine : Engine) (machine : Machine) (bound : Nat) (frame : FrameId) :
    Run RuleOutcome := do
  let outcome ← Run.observe ((engine.runner machine bound).evaluateRules engine.rules frame
    engine.settings.matchStrategy engine.settings.conflictResolution)
  match outcome with
  | .ok outcome => pure outcome
  | .error (.conflict names) =>
    Run.log (.conflictReported names)
    pure { success := false, error := some (Fault.conflictText names) }
  | .error fault => Run.fail fault

theorem Engine.evaluate_eq (engine : Engine) (machine : Machine) (bound : Nat) (store : Store)
    (frame : FrameId) {bindings : Bindings} (hbindings : bindings ≠ []) :
    engine.evaluate machine bound frame bindings store =
      engine.evaluateIn machine bound store.frames.size
        (store.extend (some frame) bindings).1 := by
  have hscope : Engine.scope frame bindings =
      Run.extend (some frame) (bindings.map Prod.fst) (bindings.map Prod.snd) := by
    rw [Engine.scope, if_neg (by simpa using hbindings)]
  change (Engine.scope frame bindings >>= engine.evaluateIn machine bound) store = _
  rw [hscope]
  exact Run.bind_of_ok (Run.extend_bindings store frame bindings) _

namespace Discipline.Lawful

variable {D : Discipline} {machine : Machine} {first second : Store} {runner : Runner}
  {frame : FrameId}

theorem fits_of_mem_rule (law : D.Lawful machine) {store after : Store} {rules : List Rule}
    {bindings : Bindings} {rule : Rule} {term : Term} {scope : FrameId} {evaluator : EvaluatorId}
    {depth : Nat}
    (hadmits : ∀ part, store.Reaches (Rule.roots rules frame bindings) part → D.Admits store part)
    (hrule : rule ∈ rules) (hterm : term ∈ [rule.condition, rule.action])
    (hlater : Store.Later store after) (hruns : D.runs evaluator) (hhome : D.home after scope)
    (hmay : ∀ access ∈ rule.accesses, D.may after scope access) :
    D.Fits after (.eval evaluator term scope depth) := by
  have hheld : D.Holds store term :=
    Territory.holds_of_reaches hadmits (.of_mem (Rule.mem_roots hrule hterm frame bindings))
  exact ⟨hruns, hhome, law.stays.holds hlater hheld, fun access haccess =>
    hmay access (Rule.accesses_subset hterm haccess)⟩

theorem agree_applyRule (law : D.Lawful machine) {rule : Rule}
    (hcondition : D.Agrees D.Holds (runner.evaluate rule.condition frame) first second)
    (haction : ∀ value middle after,
      runner.evaluate rule.condition frame first = (.ok value, middle) → value.isTruthy = true →
        D.related (middle.log (.ruleFired rule.id)) after →
        Store.Resumes first (middle.log (.ruleFired rule.id)) →
          D.Agrees D.Holds (runner.evaluate rule.action frame) (middle.log (.ruleFired rule.id))
            after) :
    D.Agrees D.Holds (runner.applyRule rule frame) first second := by
  apply hcondition.bind
  intro value middle middle' hvalue hmiddle hresumes _
  split_ifs with htruthy
  · apply (Run.agree_log law.framing hmiddle _).bind
    rintro _ _ after ⟨⟩ hafter hresumes' _
    exact haction value middle after hvalue htruthy hafter (hresumes.trans hresumes')
  · apply (Run.agree_log law.framing hmiddle _).bind
    intro _ after after' _ hafter _ _
    exact Run.agree_pure hafter ((D.hereditary after).scalar _)

theorem agree_tryRules {rules : List Rule} {onlyFirst : Bool} (hstores : D.related first second)
    (hrules : ∀ rule ∈ rules, ∀ {after after'}, D.related after after' →
      Store.Resumes first after → D.Agrees D.Holds (runner.applyRule rule frame) after after') :
    D.Agrees (fun _ _ => True) (runner.tryRules onlyFirst frame rules) first second := by
  induction rules generalizing first second with
  | nil => exact Run.agree_pure hstores trivial
  | cons rule rest ih =>
      apply (hrules rule List.mem_cons_self hstores (.refl first)).bind
      intro result after after' _ hafter hresumes _
      have hrest := ih hafter fun other hother _ _ hlater hresumes' =>
        hrules other (List.mem_cons_of_mem rule hother) hlater (hresumes.trans hresumes')
      split
      · exact hrest
      · split_ifs
        · exact Run.agree_pure hafter trivial
        · apply hrest.bind
          intro others last last' _ hlast _ _
          exact Run.agree_pure hlast trivial

theorem agree_evaluateRules (law : D.Lawful machine) {rules : List Rule} {strategy : MatchStrategy}
    {resolution : ConflictResolution} (hstores : D.related first second)
    (hrules : ∀ rule ∈ rules, ∀ {after after'}, D.related after after' →
      Store.Resumes first after → D.Agrees D.Holds (runner.applyRule rule frame) after after') :
    D.Agrees (fun _ _ => True) (runner.evaluateRules rules frame strategy resolution) first
      second := by
  have hordered : ∀ rule ∈ (if strategy = .priority then Rule.byPriority rules else rules),
      rule ∈ rules := by
    intro rule hrule
    split_ifs at hrule
    · exact Rule.mem_of_mem_byPriority hrule
    · exact hrule
  apply (agree_tryRules hstores fun rule hrule => hrules rule (hordered rule hrule)).bind
  intro found after after' _ hafter _ _
  split_ifs
  · cases resolution with
    | error => exact Run.agree_fail hafter _
    | warn =>
        apply (Run.agree_log law.framing hafter _).bind
        intro _ last last' _ hlast _ _
        exact Run.agree_pure hlast trivial
    | firstWins => exact Run.agree_pure hafter trivial
  · exact Run.agree_pure hafter trivial

theorem agree_evaluateIn (law : D.Lawful machine) {engine : Engine} {bound : Nat}
    (hstores : D.related first second)
    (hrules : ∀ rule ∈ engine.rules, ∀ {after after'}, D.related after after' →
      Store.Resumes first after →
        D.Agrees D.Holds ((engine.runner machine bound).applyRule rule frame) after after') :
    D.Agrees (fun _ _ => True) (engine.evaluateIn machine bound frame) first second := by
  apply (law.agree_evaluateRules hstores hrules).observe.bind
  intro outcome after after' _ hafter _ _
  split
  · exact Run.agree_pure hafter trivial
  · apply (Run.agree_log law.framing hafter _).bind
    intro _ last last' _ hlast _ _
    exact Run.agree_pure hlast trivial
  · exact Run.agree_fail hafter _

end Discipline.Lawful

end Rulebook
