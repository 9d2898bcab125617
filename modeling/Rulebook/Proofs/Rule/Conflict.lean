import Rulebook.Proofs.Rule.Firing
import Rulebook.Proofs.Term.Equality

/-!
# Conflicts among results

Results are compared with the first of them only.  That is enough to find any two that differ,
wherever they are, because equality is symmetric and transitive.  So it does not matter in which
order the results come.
-/

namespace Rulebook

open Term (Throughout KeysDiffer)

namespace RuleMatch

/-- Two matches, at whichever places, have unequal results. -/
def Clash (found : List RuleMatch) : Prop :=
  ∃ i j, ∃ (hi : i < found.length) (hj : j < found.length),
    i ≠ j ∧ found[i].result.equal found[j].result = false

theorem not_clash_iff_pairwise (found : List RuleMatch) : ¬Clash found ↔
    (found.map result).Pairwise fun a b => a.equal b = true ∧ b.equal a = true := by
  rw [List.pairwise_map, List.pairwise_iff_getElem]
  simp only [Clash, not_exists, not_and, Bool.not_eq_false]
  constructor
  · intro hequal i j hi hj hlt
    exact ⟨hequal i j hi hj hlt.ne, hequal j i hj hi hlt.ne'⟩
  · intro hequal i j hi hj hne
    rcases Nat.lt_or_gt_of_ne hne with hlt | hgt
    · exact (hequal i j hi hj hlt).1
    · exact (hequal j i hj hi hgt).2

/-- Whether there is a clash does not depend on the order of the results. -/
theorem clash_perm {found others : List RuleMatch}
    (hperm : (others.map result).Perm (found.map result)) : Clash others ↔ Clash found := by
  rw [← not_iff_not, not_clash_iff_pairwise, not_clash_iff_pairwise]
  exact hperm.pairwise_iff fun hequal => ⟨hequal.2, hequal.1⟩

theorem disagree_cons_eq_false_iff (first : RuleMatch) (others : List RuleMatch) :
    disagree (first :: others) = false ↔
      ∀ other ∈ others, other.result.equal first.result = true := by
  simp [disagree]

/-- It is enough to compare all results with the first one. -/
theorem disagree_iff_clash {found : List RuleMatch}
    (hkeys : ∀ entry ∈ found, Throughout KeysDiffer entry.result) :
    disagree found = true ↔ Clash found := by
  rw [← not_iff_not, Bool.not_eq_true, not_clash_iff_pairwise]
  cases found with
  | nil => simp [disagree]
  | cons first others =>
      rw [disagree_cons_eq_false_iff, List.map_cons, List.pairwise_cons]
      obtain ⟨hfirst, hothers⟩ := List.forall_mem_cons.mp hkeys
      constructor
      · intro hequal
        have hsymm : ∀ other ∈ others, first.result.equal other.result = true :=
          fun other hother => Term.equal_symm (hothers other hother) hfirst (hequal other hother)
        constructor
        · intro result hresult
          obtain ⟨other, hother, rfl⟩ := List.mem_map.mp hresult
          exact ⟨hsymm other hother, hequal other hother⟩
        · rw [List.pairwise_map]
          have hboth : ∀ a ∈ others, ∀ b ∈ others, a.result.equal b.result = true :=
            fun a ha b hb => Term.equal_trans (hothers a ha) hfirst (hothers b hb) (hequal a ha)
              (hsymm b hb)
          exact List.pairwise_of_forall_mem_list fun a ha b hb => ⟨hboth a ha b hb, hboth b hb a ha⟩
      · intro hequal other hother
        exact (hequal.1 other.result (List.mem_map_of_mem hother)).2

end RuleMatch

namespace Runner

variable {runner : Runner} {frame : FrameId} {trials : List Trial} {store after : Store}

/-- If no trial halts, those that fired and gave something are collected. -/
theorem tryRules_of_tries (htries : Tries runner frame trials store after) :
    runner.tryRules false frame (trials.map Trial.rule) store = (.ok (Trial.gave trials), after) := by
  induction htries with
  | nil store => rfl
  | @cons rule result trials store next after hfire _ ih =>
      have happly : runner.applyRule rule frame store = (.ok (result.getD .null), next) := by
        rw [applyRule_eq_fire]
        exact Run.bind_of_ok hfire _
      have happend := Trial.gave_append [⟨rule, result⟩] trials
      rw [List.singleton_append] at happend
      rw [List.map_cons, tryRules, Run.bind_of_ok happly, happend]
      by_cases hnull : result.getD .null = .null
      · rw [Trial.gave_passed hnull, hnull]
        exact ih
      · obtain ⟨value, rfl⟩ : ∃ value, result = some value := by
          cases result with
          | none => exact absurd rfl hnull
          | some value => exact ⟨value, rfl⟩
        rw [Option.getD_some] at hnull ⊢
        rw [Trial.gave_some hnull]
        split
        · exact absurd rfl hnull
        · exact Run.bind_of_ok ih _

theorem evaluateRules_of_agree (htries : Tries runner frame trials store after)
    (hagree : RuleMatch.disagree (Trial.gave trials) = false) (resolution : ConflictResolution) :
    runner.evaluateRules (trials.map Trial.rule) frame .allMatch resolution store =
      (.ok { found := Trial.gave trials }, after) := by
  rw [evaluateRules]
  refine (Run.bind_of_ok (tryRules_of_tries htries) _).trans ?_
  rw [hagree, if_neg Bool.false_ne_true]
  rfl

theorem evaluateRules_of_disagree (htries : Tries runner frame trials store after)
    (hdisagree : RuleMatch.disagree (Trial.gave trials) = true) (resolution : ConflictResolution) :
    runner.evaluateRules (trials.map Trial.rule) frame .allMatch resolution store =
      match resolution with
      | .error => (.error (.fault (.conflict ((Trial.gave trials).map RuleMatch.rule))), after)
      | .warn =>
        (.ok { found := Trial.gave trials,
               warnings := [conflictWarning ((Trial.gave trials).map RuleMatch.rule)] },
          after.log (.conflictWarned ((Trial.gave trials).map RuleMatch.rule)))
      | .firstWins => (.ok { found := Trial.gave trials }, after) := by
  rw [evaluateRules]
  refine (Run.bind_of_ok (tryRules_of_tries htries) _).trans ?_
  rw [if_pos hdisagree]
  cases resolution <;> rfl

/-- A conflict is reported. -/
def Conflicts (runner : Runner) (rules : List Rule) (frame : FrameId) (store : Store) : Prop :=
  ∃ names after, runner.evaluateRules rules frame .allMatch .error store =
    (.error (.fault (.conflict names)), after)

end Runner

/-- In the results no mapping has a key twice. -/
def Trial.KeysDiffer (trials : List Trial) : Prop :=
  ∀ trial ∈ trials, ∀ result ∈ trial.result, Throughout Term.KeysDiffer result

theorem Trial.KeysDiffer.gave {trials : List Trial} (hkeys : KeysDiffer trials) :
    ∀ found ∈ gave trials, Throughout Term.KeysDiffer found.result := by
  intro found hfound
  obtain ⟨trial, htrial, hresult⟩ := List.mem_filterMap.mp (List.mem_of_mem_filter hfound)
  obtain ⟨result, hsome, rfl⟩ := Option.map_eq_some_iff.mp hresult
  exact hkeys trial htrial result hsome

namespace Runner

variable {runner : Runner} {frame : FrameId} {trials : List Trial} {store after : Store}

theorem conflicts_iff_clash (htries : Tries runner frame trials store after)
    (hkeys : Trial.KeysDiffer trials) :
    runner.Conflicts (trials.map Trial.rule) frame store ↔
      RuleMatch.Clash (Trial.gave trials) := by
  rw [← RuleMatch.disagree_iff_clash hkeys.gave]
  constructor
  · rintro ⟨names, last, hrun⟩
    by_contra hagree
    rw [Bool.not_eq_true] at hagree
    rw [evaluateRules_of_agree htries hagree] at hrun
    cases hrun
  · intro hdisagree
    exact ⟨_, _, evaluateRules_of_disagree htries hdisagree .error⟩

/-- A conflict is reported exactly if two results differ, wherever they are and in whichever order
the results come.  The matches are the same under all policies. -/
theorem evaluateRules_conflicts (htries : Tries runner frame trials store after)
    (hkeys : Trial.KeysDiffer trials) :
    (RuleMatch.Clash (Trial.gave trials) →
      runner.evaluateRules (trials.map Trial.rule) frame .allMatch .error store =
          (.error (.fault (.conflict ((Trial.gave trials).map RuleMatch.rule))), after) ∧
        runner.evaluateRules (trials.map Trial.rule) frame .allMatch .warn store =
          (.ok { found := Trial.gave trials,
                 warnings := [conflictWarning ((Trial.gave trials).map RuleMatch.rule)] },
            after.log (.conflictWarned ((Trial.gave trials).map RuleMatch.rule)))) ∧
    (¬RuleMatch.Clash (Trial.gave trials) → ∀ resolution,
      runner.evaluateRules (trials.map Trial.rule) frame .allMatch resolution store =
        (.ok { found := Trial.gave trials }, after)) ∧
    runner.evaluateRules (trials.map Trial.rule) frame .allMatch .firstWins store =
      (.ok { found := Trial.gave trials }, after) ∧
    ∀ (other : Runner) (scope : FrameId) (tried : List Trial) (start last : Store),
      Tries other scope tried start last → Trial.KeysDiffer tried →
        ((Trial.gave tried).map RuleMatch.result).Perm
          ((Trial.gave trials).map RuleMatch.result) →
        (other.Conflicts (tried.map Trial.rule) scope start ↔
          runner.Conflicts (trials.map Trial.rule) frame store) := by
  have hclash := RuleMatch.disagree_iff_clash hkeys.gave
  constructor
  · intro htwo
    have hdisagree := hclash.mpr htwo
    exact ⟨evaluateRules_of_disagree htries hdisagree .error,
      evaluateRules_of_disagree htries hdisagree .warn⟩
  constructor
  · intro hnone
    exact evaluateRules_of_agree htries (Bool.not_eq_true _ ▸ mt hclash.mp hnone)
  constructor
  · cases hdisagree : RuleMatch.disagree (Trial.gave trials) with
    | false => exact evaluateRules_of_agree htries hdisagree .firstWins
    | true => exact evaluateRules_of_disagree htries hdisagree .firstWins
  · intro other scope tried start last htried hdiffer hperm
    rw [conflicts_iff_clash htried hdiffer, conflicts_iff_clash htries hkeys]
    exact RuleMatch.clash_perm hperm

/-- Rules that give two equal mappings, in different orders, and a number. -/
def orderedTrials : List Trial :=
  [.mapping [(.str "a", .int 1), (.str "b", .bool true)],
    .mapping [(.str "b", .int 1), (.str "a", .bool true)], .int 1].zipWith
    (fun result id => ⟨firingRule id result, some result⟩) ["first", "second", "third"]

theorem keysDiffer_orderedTrials : Trial.KeysDiffer orderedTrials := by
  intro trial htrial result hresult
  have hscalar : ∀ s, Throughout Term.KeysDiffer (.scalar s) := fun s =>
    .intro List.Pairwise.nil fun _ hpart => absurd hpart List.not_mem_nil
  simp only [orderedTrials, List.zipWith_cons_cons, List.zipWith_nil_left, List.mem_cons,
    List.not_mem_nil, or_false] at htrial
  rcases htrial with rfl | rfl | rfl <;> cases hresult
  case inr.inr => exact hscalar _
  all_goals
    apply Throughout.intro
    · simp [Term.KeysDiffer, Entries.Distinct, Term.keyedParts, Scalar.equal]
    · intro part hpart
      simp only [Term.contents, List.map_cons, List.map_nil, List.mem_cons, List.not_mem_nil,
        or_false] at hpart
      rcases hpart with rfl | rfl <;> exact hscalar _

theorem evaluateRules_conflicts_ordered :
    ∃ after, Tries plainRunner 0 orderedTrials {} after ∧ Trial.KeysDiffer orderedTrials ∧
      RuleMatch.Clash (Trial.gave orderedTrials) ∧
      plainRunner.evaluateRules (orderedTrials.map Trial.rule) 0 .allMatch .error {} =
        (.error (.fault (.conflict ["first", "second", "third"])), after) := by
  have htries : Tries plainRunner 0 orderedTrials {} _ :=
    .cons rfl (.cons rfl (.cons rfl (.nil _)))
  have hclash : RuleMatch.Clash (Trial.gave orderedTrials) :=
    ⟨1, 2, by decide, by decide, by decide, rfl⟩
  exact ⟨_, htries, keysDiffer_orderedTrials, hclash,
    ((evaluateRules_conflicts htries keysDiffer_orderedTrials).1 hclash).1⟩

end Runner
end Rulebook
