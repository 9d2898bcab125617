import Rulebook.Proofs.Evaluation.Repeating

/-!
# Rules that only read

Rules whose expressions only read give the same outcome whenever they are evaluated again.
-/

namespace Rulebook

def Rule.OnlyReads (rule : Rule) : Prop :=
  ∀ access ∈ rule.accesses, access.isRead = true

instance (rule : Rule) : Decidable rule.OnlyReads :=
  inferInstanceAs (Decidable (∀ access ∈ rule.accesses, access.isRead = true))

def RuleMatch.rename (ρ : Renaming) (found : RuleMatch) : RuleMatch :=
  { found with result := found.result.rename ρ }

def RuleOutcome.rename (ρ : Renaming) (outcome : RuleOutcome) : RuleOutcome :=
  { outcome with found := outcome.found.map (RuleMatch.rename ρ) }

@[simp] theorem Term.rename_eq_null {ρ : Renaming} {term : Term} :
    term.rename ρ = .null ↔ term = .null := by
  cases term <;> simp

namespace RuleMatch

variable {ρ : Renaming}

@[simp] theorem map_rule_rename (found : List RuleMatch) :
    (found.map (rename ρ)).map RuleMatch.rule = found.map RuleMatch.rule := by
  simp [rename, Function.comp_def]

@[simp] theorem disagree_rename (found : List RuleMatch) :
    disagree (found.map (rename ρ)) = disagree found := by
  cases found with
  | nil => rfl
  | cons first others => simp [disagree, rename, Function.comp_def, Term.equal_rename]

end RuleMatch

/-! ## What rules leave -/

section Moves

open Run

theorem Store.resumes_log (event : Event) : Moves Store.Resumes (Run.log event) :=
  fun store => .log store event

theorem Store.resumes_log_pure (event : Event) (value : α) :
    Moves Store.Resumes (Run.log event >>= fun _ => pure value) :=
  fun store => .log store event

namespace Runner

variable (runner : Runner)

theorem resumes_evaluate (term : Term) (frame : FrameId) :
    Moves Store.Resumes (runner.evaluate term frame) :=
  fun store => runner.machine.resumes_run runner.bound _ store

theorem resumes_applyRule (rule : Rule) (frame : FrameId) :
    Moves Store.Resumes (runner.applyRule rule frame) := by
  apply runOrder_resumes.bind (runner.resumes_evaluate rule.condition frame)
  intro condition
  split_ifs
  · exact runOrder_resumes.bind (Store.resumes_log _) fun _ =>
      runner.resumes_evaluate rule.action frame
  · exact Store.resumes_log_pure _ _

/-- How rules are tried on after one of them has given a result. -/
def tryOn (onlyFirst : Bool) (frame : FrameId) (rule : Rule) (rest : List Rule) :
    Term → Run (List RuleMatch)
  | .null => runner.tryRules onlyFirst frame rest
  | result => do
    let found : RuleMatch := { rule := rule.id, result, note := rule.note }
    if onlyFirst then pure [found]
    else
      let others ← runner.tryRules onlyFirst frame rest
      pure (found :: others)

theorem tryRules_cons (onlyFirst : Bool) (frame : FrameId) (rule : Rule) (rest : List Rule) :
    runner.tryRules onlyFirst frame (rule :: rest) =
      runner.applyRule rule frame >>= runner.tryOn onlyFirst frame rule rest :=
  rfl

theorem tryOn_of_ne (onlyFirst : Bool) (frame : FrameId) (rule : Rule) (rest : List Rule)
    {result : Term} (hresult : result ≠ .null) :
    runner.tryOn onlyFirst frame rule rest result =
      if onlyFirst then pure [{ rule := rule.id, result, note := rule.note }]
      else runner.tryRules onlyFirst frame rest >>= fun others =>
        pure ({ rule := rule.id, result, note := rule.note } :: others) := by
  unfold tryOn
  split
  · exact absurd rfl hresult
  · rfl

theorem resumes_tryOn {onlyFirst : Bool} {frame : FrameId} {rest : List Rule}
    (hrest : Moves Store.Resumes (runner.tryRules onlyFirst frame rest)) (rule : Rule)
    (result : Term) : Moves Store.Resumes (runner.tryOn onlyFirst frame rule rest result) := by
  unfold tryOn
  split
  · exact hrest
  · split_ifs
    · exact runOrder_resumes.pure _
    · exact runOrder_resumes.bind hrest fun _ => runOrder_resumes.pure _

theorem resumes_tryRules (onlyFirst : Bool) (frame : FrameId) (rules : List Rule) :
    Moves Store.Resumes (runner.tryRules onlyFirst frame rules) := by
  induction rules with
  | nil => exact runOrder_resumes.pure _
  | cons rule rest ih =>
      exact runOrder_resumes.bind (runner.resumes_applyRule rule frame)
        (runner.resumes_tryOn ih rule)

theorem resumes_evaluateRules (rules : List Rule) (frame : FrameId) (strategy : MatchStrategy)
    (resolution : ConflictResolution) :
    Moves Store.Resumes (runner.evaluateRules rules frame strategy resolution) := by
  apply runOrder_resumes.bind (runner.resumes_tryRules _ frame _)
  intro found
  split_ifs
  · cases resolution with
    | error => exact runOrder_resumes.refl
    | warn => exact Store.resumes_log_pure _ _
    | firstWins => exact runOrder_resumes.pure _
  · exact runOrder_resumes.pure _

end Runner

namespace Engine

variable (engine : Engine) (machine : Machine) (bound : Nat)

theorem resumes_evaluateIn (frame : FrameId) :
    Moves Store.Resumes (engine.evaluateIn machine bound frame) := by
  apply runOrder_resumes.bind ((engine.runner machine bound).resumes_evaluateRules _ _ _ _).observe
  intro outcome
  split
  · exact runOrder_resumes.pure _
  · exact Store.resumes_log_pure _ _
  · exact runOrder_resumes.refl

theorem resumes_evaluate (frame : FrameId) (bindings : Bindings) :
    Moves Store.Resumes (engine.evaluate machine bound frame bindings) := by
  by_cases hbindings : bindings = []
  · subst hbindings
    exact engine.resumes_evaluateIn machine bound frame
  · intro store
    rw [engine.evaluate_eq machine bound store frame hbindings]
    exact (Store.Resumes.push store _).trans (engine.resumes_evaluateIn machine bound _ _)

end Engine

end Moves

/-! ## Rules in an echoing store -/

/-- The expressions of a rule only read, lie in reach, and are not renamed. -/
structure Rule.Repeatable (origin : Store) (roots : List Term) (ρ : Renaming) (rule : Rule) : Prop where
  reads : rule.OnlyReads
  holds : ∀ term ∈ [rule.condition, rule.action],
    (Territory.reading origin roots).Holds origin term
  kept : ∀ term ∈ [rule.condition, rule.action], term.rename ρ = term

namespace Store.Echoes

open Run

variable {origin first second : Store} {roots : List Term} {ρ : Renaming} {frame : FrameId}
  {runner : Runner}

theorem tracks_part {rule : Rule} (hrule : rule.Repeatable origin roots ρ)
    (hechoes : Echoes origin roots ρ first second)
    (hhome : (Territory.reading origin roots).home first frame) {term : Term}
    (hterm : term ∈ [rule.condition, rule.action]) :
    Tracks origin.CoreOnly (Echoes origin roots ρ) (Copied origin roots ρ)
      (runner.evaluate term frame) (runner.evaluate term (ρ.frame frame)) first second := by
  have hheld := Territory.stays_reading.holds hechoes.later (hrule.holds term hterm)
  have htracks := tracks_evaluate runner.machine runner.bound runner.evaluator hechoes hhome hheld
    fun access haccess => hrule.reads access (Rule.accesses_subset hterm haccess)
  rwa [hrule.kept term hterm] at htracks

theorem inStep_log (hechoes : Echoes origin roots ρ first second) (event : Event) :
    InStep (Echoes origin roots ρ) (fun _ _ _ => True) (Run.log event) (Run.log event) first
      second :=
  .of_eq rfl rfl (.ok trivial) (hechoes.log event event) (Resumes.log first event).toLater

theorem inStep_log_pure {V : Store → α → β → Prop} (hechoes : Echoes origin roots ρ first second)
    (event : Event) {value : α} {other : β} (hvalue : V (first.log event) value other) :
    InStep (Echoes origin roots ρ) V (Run.log event >>= fun _ => pure value)
      (Run.log event >>= fun _ => pure other) first second :=
  .of_eq rfl rfl (.ok hvalue) (hechoes.log event event) (Resumes.log first event).toLater

theorem tracks_applyRule {rule : Rule} (hrule : rule.Repeatable origin roots ρ)
    (hechoes : Echoes origin roots ρ first second)
    (hhome : (Territory.reading origin roots).home first frame) :
    Tracks origin.CoreOnly (Echoes origin roots ρ) (Copied origin roots ρ)
      (runner.applyRule rule frame) (runner.applyRule rule (ρ.frame frame)) first second := by
  have hcounts := shrinks_coreOnly origin
  apply (tracks_part hrule hechoes hhome List.mem_cons_self).bind hcounts
  · intro condition
    split_ifs
    · exact runOrder_resumes.bind (Store.resumes_log _) fun _ => runner.resumes_evaluate _ _
    · exact Store.resumes_log_pure _ _
  rintro condition _ after after' hafter hlater ⟨_, rfl⟩
  rw [Term.isTruthy_rename]
  split_ifs
  · apply (hafter.inStep_log _).tracks.bind hcounts fun _ => runner.resumes_evaluate _ _
    intro _ _ last last' hlast hlater' _
    exact tracks_part hrule hlast (Territory.stays_reading.home (hlater.trans hlater') hhome)
      (by simp)
  · exact (hafter.inStep_log_pure _ ⟨(Territory.hereditary _ _).scalar _, rfl⟩).tracks

theorem tracks_tryRules {rules : List Rule} {onlyFirst : Bool}
    (hrules : ∀ rule ∈ rules, rule.Repeatable origin roots ρ)
    (hechoes : Echoes origin roots ρ first second)
    (hhome : (Territory.reading origin roots).home first frame) :
    Tracks origin.CoreOnly (Echoes origin roots ρ)
      (fun _ found others => others = found.map (RuleMatch.rename ρ))
      (runner.tryRules onlyFirst frame rules) (runner.tryRules onlyFirst (ρ.frame frame) rules)
      first second := by
  have hcounts := shrinks_coreOnly origin
  induction rules generalizing first second with
  | nil => exact (inStep_pure hechoes rfl).tracks
  | cons rule rest ih =>
      obtain ⟨hrule, hrest⟩ := List.forall_mem_cons.mp hrules
      rw [Runner.tryRules_cons, Runner.tryRules_cons]
      apply (tracks_applyRule hrule hechoes hhome).bind hcounts
        (runner.resumes_tryOn (runner.resumes_tryRules onlyFirst frame rest) rule)
      rintro result _ after after' hafter hlater ⟨_, rfl⟩
      have hothers := ih hrest hafter (Territory.stays_reading.home hlater hhome)
      by_cases hresult : result = .null
      · subst hresult
        exact hothers
      · rw [Runner.tryOn_of_ne _ _ _ _ _ hresult,
          Runner.tryOn_of_ne _ _ _ _ _ (Term.rename_eq_null.not.mpr hresult)]
        split_ifs
        · exact (inStep_pure hafter rfl).tracks
        · apply hothers.bind hcounts fun _ => runOrder_resumes.pure _
          rintro others _ last last' hlast _ rfl
          exact (inStep_pure hlast rfl).tracks

theorem tracks_evaluateRules {rules : List Rule} {strategy : MatchStrategy}
    {resolution : ConflictResolution} (hrules : ∀ rule ∈ rules, rule.Repeatable origin roots ρ)
    (hechoes : Echoes origin roots ρ first second)
    (hhome : (Territory.reading origin roots).home first frame) :
    Tracks origin.CoreOnly (Echoes origin roots ρ)
      (fun _ outcome other => other = outcome.rename ρ)
      (runner.evaluateRules rules frame strategy resolution)
      (runner.evaluateRules rules (ρ.frame frame) strategy resolution) first second := by
  have hcounts := shrinks_coreOnly origin
  have hordered : ∀ rule ∈ (if strategy = .priority then Rule.byPriority rules else rules),
      rule.Repeatable origin roots ρ := by
    intro rule hrule
    split_ifs at hrule
    · exact hrules rule (Rule.mem_of_mem_byPriority hrule)
    · exact hrules rule hrule
  apply (tracks_tryRules hordered hechoes hhome).bind hcounts
  · intro found
    split_ifs
    · cases resolution with
      | error => exact runOrder_resumes.refl
      | warn => exact Store.resumes_log_pure _ _
      | firstWins => exact runOrder_resumes.pure _
    · exact runOrder_resumes.pure _
  rintro found _ after after' hafter _ rfl
  rw [RuleMatch.disagree_rename, RuleMatch.map_rule_rename]
  split_ifs
  · cases resolution with
    | error => exact (inStep_fail hafter _).tracks
    | warn => exact (hafter.inStep_log_pure _ rfl).tracks
    | firstWins => exact (inStep_pure hafter rfl).tracks
  · exact (inStep_pure hafter rfl).tracks

theorem tracks_evaluateIn {engine : Engine} (machine : Machine) (bound : Nat)
    (hrules : ∀ rule ∈ engine.rules, rule.Repeatable origin roots ρ)
    (hechoes : Echoes origin roots ρ first second)
    (hhome : (Territory.reading origin roots).home first frame) :
    Tracks origin.CoreOnly (Echoes origin roots ρ)
      (fun _ outcome other => other = outcome.rename ρ) (engine.evaluateIn machine bound frame)
      (engine.evaluateIn machine bound (ρ.frame frame)) first second := by
  have hcounts := shrinks_coreOnly origin
  apply (tracks_evaluateRules hrules hechoes hhome).observe.bind hcounts
  · intro outcome
    split
    · exact runOrder_resumes.pure _
    · exact Store.resumes_log_pure _ _
    · exact runOrder_resumes.refl
  intro outcome other after after' hafter _ houtcome
  cases houtcome with
  | ok hvalue => exact (inStep_pure hafter hvalue).tracks
  | error fault =>
      cases fault with
      | conflict names => exact (hafter.inStep_log_pure _ rfl).tracks
      | _ => exact (inStep_fail hafter _).tracks

section Engine

variable {later : Store} {rules : List Rule} {bindings : Bindings}

theorem repeatable_of_mem (later : Store)
    (hconsistent : origin.Consistent (Rule.roots rules frame bindings))
    (hquiet : origin.Quiet (Rule.roots rules frame bindings))
    (hreads : ∀ rule ∈ rules, rule.OnlyReads) :
    ∀ rule ∈ rules, rule.Repeatable origin (Rule.roots rules frame bindings)
      (.from origin later) := by
  intro rule hrule
  have hreached : ∀ term ∈ [rule.condition, rule.action],
      origin.Reaches (Rule.roots rules frame bindings) term :=
    fun term hterm => .of_mem (Rule.mem_roots hrule hterm frame bindings)
  exact ⟨hreads rule hrule, fun term hterm => hconsistent.holds hquiet (hreached term hterm),
    fun term hterm => hconsistent.rename_eq (hreached term hterm)⟩

/-- The frames of the bindings echo each other. -/
theorem start_extend (hkeeps : origin.Keeps later) (hresumes : Resumes origin later)
    (hconsistent : origin.Consistent (Rule.roots rules frame bindings))
    (hquiet : origin.Quiet (Rule.roots rules frame bindings)) :
    Echoes origin (Rule.roots rules frame bindings) (.from origin later)
      (origin.extend (some frame) bindings).1 (later.extend (some frame) bindings).1 := by
  have hframe : origin.Reaches (Rule.roots rules frame bindings) (.scope frame) :=
    .of_mem List.mem_cons_self
  have hvalues : ∀ binding ∈ bindings,
      origin.Reaches (Rule.roots rules frame bindings) binding.2 :=
    fun binding hbinding => .of_mem (Rule.mem_roots_of_value hbinding rules frame)
  have hextended := (start hkeeps hresumes hconsistent hquiet).extend bindings
    (fun binding hbinding => hconsistent.holds hquiet (hvalues binding hbinding))
    (hconsistent.home hframe)
  rwa [hconsistent.frame_eq hframe, hconsistent.bindings_rename hvalues] at hextended

theorem tracks_engine (engine : Engine) (machine : Machine) (bound : Nat)
    (hkeeps : origin.Keeps later) (hresumes : Resumes origin later)
    (hconsistent : origin.Consistent (Rule.roots engine.rules frame bindings))
    (hquiet : origin.Quiet (Rule.roots engine.rules frame bindings))
    (hreads : ∀ rule ∈ engine.rules, rule.OnlyReads) :
    Tracks origin.CoreOnly
      (Echoes origin (Rule.roots engine.rules frame bindings) (.from origin later))
      (fun _ outcome other => other = outcome.rename (.from origin later))
      (engine.evaluate machine bound frame bindings)
      (engine.evaluate machine bound frame bindings) origin later := by
  have hrules := repeatable_of_mem later hconsistent hquiet hreads
  have hstart := start hkeeps hresumes hconsistent hquiet
  by_cases hbindings : bindings = []
  · subst hbindings
    have hframe : origin.Reaches (Rule.roots engine.rules frame []) (.scope frame) :=
      .of_mem List.mem_cons_self
    have htracks := tracks_evaluateIn machine bound hrules hstart
      (hconsistent.home hframe)
    rwa [hconsistent.frame_eq hframe] at htracks
  · -- The frame of the bindings is new, so that it has another number in the later store.
    have hnew : (Territory.reading origin (Rule.roots engine.rules frame bindings)).home
        (origin.extend (some frame) bindings).1 origin.frames.size := by
      refine ⟨Or.inr (Nat.le_refl _), ?_⟩
      simp [Store.extend, Store.push]
    have hnumber : (Renaming.from origin later).frame origin.frames.size = later.frames.size :=
      hstart.size 0
    have htracks := tracks_evaluateIn machine bound hrules
      (start_extend hkeeps hresumes hconsistent hquiet) hnew
    intro hend
    rw [engine.evaluate_eq machine bound _ _ hbindings] at hend
    obtain ⟨houtcome, hrelated, hlater⟩ := htracks hend
    rw [hnumber, ← engine.evaluate_eq machine bound _ _ hbindings] at houtcome hrelated
    rw [← engine.evaluate_eq machine bound _ _ hbindings] at houtcome hrelated hlater
    exact ⟨houtcome, hrelated, (Store.later_extend origin frame bindings).trans hlater⟩

end Engine

end Store.Echoes

/-! ## Repetition -/

/-- Evaluating an expression has no effect: it only reads names, like all closures that it can get at,
and no primitives are applied but the core operations. -/
structure Machine.ReadsOnly (machine : Machine) (bound : Nat) (evaluator : EvaluatorId)
    (term : Term) (frame : FrameId) (store : Store) : Prop where
  reads : term.OnlyReads
  quiet : store.Quiet [.scope frame, term]
  consistent : store.Consistent [.scope frame, term]
  core : store.CoreOnly (machine.evaluate bound evaluator term frame store).2

/-- Evaluating the rules of an engine has no effect. -/
structure Engine.ReadsOnly (engine : Engine) (machine : Machine) (bound : Nat) (frame : FrameId)
    (bindings : Bindings) (store : Store) : Prop where
  reads : ∀ rule ∈ engine.rules, rule.OnlyReads
  quiet : store.Quiet (Rule.roots engine.rules frame bindings)
  consistent : store.Consistent (Rule.roots engine.rules frame bindings)
  core : store.CoreOnly (engine.evaluate machine bound frame bindings store).2

/-- A store goes on to another one by evaluating something that has no effect. -/
inductive Machine.ReadsOn (machine : Machine) : Store → Store → Prop where
  | evaluate {bound : Nat} {evaluator : EvaluatorId} {term : Term} {frame : FrameId} {store : Store}
      (hreads : machine.ReadsOnly bound evaluator term frame store) :
      ReadsOn machine store (machine.evaluate bound evaluator term frame store).2
  | rules {engine : Engine} {bound : Nat} {frame : FrameId} {bindings : Bindings} {store : Store}
      (hreads : engine.ReadsOnly machine bound frame bindings store) :
      ReadsOn machine store (engine.evaluate machine bound frame bindings store).2

/-- From a later store a run ends like from the first one: with the same halt or with the renamed
value, and the frames that it creates are the renamed ones. -/
structure Run.Repeats (rename : Renaming → α → α) (run : Run α) (store later : Store) : Prop where
  outcome : (run later).1 = (run store).1.map (rename (.from store later))
  created : ∀ id, store.frames.size ≤ id →
    (run later).2.frames[(Renaming.from store later).frame id]? =
      (run store).2.frames[id]?.map (Frame.rename (.from store later))

section Repetition

open Run Store

variable {machine : Machine} {bound : Nat} {frame : FrameId} {store later : Store}

theorem Run.Repeats.of_inStep {rename : Renaming → α → α} {roots : List Term}
    {V : Store → α → α → Prop} {run : Run α}
    (hV : ∀ after value other, V after value other → other = rename (.from store later) value)
    (hruns : InStep (Echoes store roots (.from store later)) V run run store later) :
    run.Repeats rename store later where
  outcome := by
    have houtcome := hruns.outcome
    generalize (run store).1 = first, (run later).1 = second at houtcome
    cases houtcome with
    | ok hvalue => exact congrArg Except.ok (hV _ _ _ hvalue)
    | error halt => rfl
  created id hid := hruns.related.frame id (Or.inr hid)

theorem Machine.ReadsOnly.inStep {evaluator : EvaluatorId} {term : Term}
    (hreads : machine.ReadsOnly bound evaluator term frame store) (hkeeps : store.Keeps later)
    (hresumes : Resumes store later) :
    InStep (Echoes store [.scope frame, term] (.from store later))
      (Copied store [.scope frame, term] (.from store later))
      (machine.evaluate bound evaluator term frame) (machine.evaluate bound evaluator term frame)
      store later := by
  obtain ⟨hterm, hquiet, hconsistent, hcore⟩ := hreads
  have hframe : store.Reaches [.scope frame, term] (.scope frame) := .of_mem List.mem_cons_self
  have hreached : store.Reaches [.scope frame, term] term := .of_mem (by simp)
  have htracks := Echoes.tracks_evaluate machine bound evaluator
    (.start hkeeps hresumes hconsistent hquiet) (hconsistent.home hframe)
    (hconsistent.holds hquiet hreached) hterm
  rw [hconsistent.frame_eq hframe, hconsistent.rename_eq hreached] at htracks
  exact htracks hcore

theorem Engine.ReadsOnly.inStep {engine : Engine} {bindings : Bindings}
    (hreads : engine.ReadsOnly machine bound frame bindings store) (hkeeps : store.Keeps later)
    (hresumes : Resumes store later) :
    InStep (Echoes store (Rule.roots engine.rules frame bindings) (.from store later))
      (fun _ outcome other => other = outcome.rename (.from store later))
      (engine.evaluate machine bound frame bindings) (engine.evaluate machine bound frame bindings)
      store later :=
  Echoes.tracks_engine engine machine bound hkeeps hresumes hreads.consistent hreads.quiet
    hreads.reads hreads.core

theorem Machine.ReadsOn.keeps (hreads : machine.ReadsOn store later) :
    store.Keeps later ∧ Resumes store later := by
  cases hreads with
  | evaluate hreads =>
      exact ⟨(hreads.inStep (.refl store) (.refl store)).related.keeps,
        machine.resumes_run _ _ store⟩
  | rules hreads =>
      exact ⟨(hreads.inStep (.refl store) (.refl store)).related.keeps,
        Engine.resumes_evaluate _ machine _ _ _ store⟩

theorem Machine.keeps_of_readsOn (hreads : Relation.ReflTransGen machine.ReadsOn store later) :
    store.Keeps later ∧ Resumes store later := by
  induction hreads with
  | refl => exact ⟨.refl store, .refl store⟩
  | tail _ hlast ih => exact ⟨ih.1.trans hlast.keeps.1, ih.2.trans hlast.keeps.2⟩

end Repetition

/-- The root environment binds a rate and a closure that adds it. -/
def rateStore : Store where
  frames := #[{ bindings := [("+", .primitive (.core .plus)), ("rate", .int 2),
    ("rated", .closure 0 ["x"] (.application (.variable "+") [.variable "x", .variable "rate"]) 0
      none)] }]
  closures := 1

/-- Gives a closure whose environment holds what was computed. -/
def rateTerm : Term :=
  .application (.lambda ["x"] (.lambda ["y"] (.variable "x")))
    [.application (.variable "rated") [.int 5]]

def rateEngine : Engine where
  rules := [{ id := "rate", condition := .variable "amount", action := rateTerm }]
  settings := {}
  evaluator := 0

def rateInventory : List Term :=
  let sum := .application (.variable "+") [.variable "x", .variable "rate"]
  let inner := .lambda ["y"] (.variable "x")
  [.scope 0, .int 5, .variable "amount", rateTerm, .lambda ["x"] inner, inner, .variable "x",
    .application (.variable "rated") [.int 5], .variable "rated", .int 2,
    .primitive (.core .plus), .closure 0 ["x"] sum 0 none, sum, .variable "+", .variable "rate"]

end Rulebook
