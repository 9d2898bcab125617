import Mathlib
import Rulebook.Proofs.Rule.FirstMatch

/-!
# Rules by priority

Sorting puts rules into the order of falling priorities and keeps those of equal priority in their
order.  No other list of the same rules is ordered like this, since it can be put together from the
rules of each priority.  So lists that differ in the order of priorities only are sorted into the
same list, and trying rules by priority is searching this list for the first match.
-/

namespace Rulebook

namespace Rule

/-- Rules by falling priority: all of them, and those of equal priority in the order in which they
were. -/
structure Ranked (rules ordered : List Rule) : Prop where
  perm : ordered.Perm rules
  falling : ordered.Pairwise fun a b => b.priority ≤ a.priority
  stable : ∀ priority,
    ordered.filter (·.priority = priority) = rules.filter (·.priority = priority)

theorem insertByPriority_perm (rule : Rule) (rules : List Rule) :
    (insertByPriority rule rules).Perm (rule :: rules) := by
  induction rules with
  | nil => exact .refl _
  | cons other rest ih =>
      rw [insertByPriority]
      split_ifs
      · exact .refl _
      · exact (ih.cons other).trans (.swap rule other rest)

theorem falling_insertByPriority (rule : Rule) {rules : List Rule}
    (hrules : rules.Pairwise fun a b => b.priority ≤ a.priority) :
    (insertByPriority rule rules).Pairwise fun a b => b.priority ≤ a.priority := by
  induction rules with
  | nil => exact List.pairwise_singleton _ rule
  | cons other rest ih =>
      obtain ⟨hother, hrest⟩ := List.pairwise_cons.mp hrules
      rw [insertByPriority]
      split_ifs with hle
      · refine List.pairwise_cons.mpr ⟨?_, hrules⟩
        rintro last hlast
        rcases List.mem_cons.mp hlast with rfl | hlast
        · exact hle
        · exact (hother last hlast).trans hle
      · refine List.pairwise_cons.mpr ⟨?_, ih hrest⟩
        intro last hlast
        rcases List.mem_cons.mp ((insertByPriority_perm rule rest).mem_iff.mp hlast) with
          rfl | hlast
        · exact le_of_not_ge hle
        · exact hother last hlast

/-- A rule that is passed on the way to its place has another priority. -/
theorem filter_insertByPriority (rule : Rule) (rules : List Rule) (priority : Int) :
    (insertByPriority rule rules).filter (·.priority = priority) =
      (rule :: rules).filter (·.priority = priority) := by
  induction rules with
  | nil => rfl
  | cons other rest ih =>
      rw [insertByPriority]
      split_ifs with hle
      · rfl
      · rw [List.filter_cons, ih]
        by_cases hrule : rule.priority = priority
        · have hother : other.priority ≠ priority := fun heq => hle (heq.trans hrule.symm).le
          simp [hrule, hother]
        · simp [List.filter_cons, hrule]

theorem ranked_byPriority (rules : List Rule) : Ranked rules (byPriority rules) := by
  induction rules with
  | nil => exact ⟨.refl _, .nil, fun _ => rfl⟩
  | cons rule rest ih =>
      refine ⟨?_, falling_insertByPriority rule ih.falling, ?_⟩
      · exact (insertByPriority_perm rule _).trans (ih.perm.cons rule)
      · intro priority
        rw [byPriority, filter_insertByPriority, List.filter_cons, List.filter_cons, ih.stable]

theorem priority_le_of_mem {rule other : Rule} {rules : List Rule}
    (hrules : (rule :: rules).Pairwise fun a b => b.priority ≤ a.priority)
    (hother : other ∈ rule :: rules) : other.priority ≤ rule.priority := by
  rcases List.mem_cons.mp hother with rfl | hother
  · exact le_rfl
  · exact (List.pairwise_cons.mp hrules).1 other hother

/-- Rules with falling priorities are known from the rules of each priority. -/
theorem eq_of_falling {rules others : List Rule}
    (hrules : rules.Pairwise fun a b => b.priority ≤ a.priority)
    (hothers : others.Pairwise fun a b => b.priority ≤ a.priority)
    (hsame : ∀ priority, rules.filter (·.priority = priority) =
      others.filter (·.priority = priority)) : rules = others := by
  have hmem : ∀ rule, rule ∈ rules ↔ rule ∈ others := by
    intro rule
    have hiff := congrArg (rule ∈ ·) (hsame rule.priority)
    simpa using hiff
  induction rules generalizing others with
  | nil =>
      symm
      rw [List.eq_nil_iff_forall_not_mem]
      exact fun rule hrule => absurd ((hmem rule).mpr hrule) List.not_mem_nil
  | cons rule rules ih =>
      cases others with
      | nil => exact absurd ((hmem rule).mp List.mem_cons_self) List.not_mem_nil
      | cons other others =>
          have hle := priority_le_of_mem hothers ((hmem rule).mp List.mem_cons_self)
          have hge := priority_le_of_mem hrules ((hmem other).mpr List.mem_cons_self)
          -- Each head is somewhere in the other list, so neither is above the other.
          have hpriority : other.priority = rule.priority := le_antisymm hge hle
          have hheads := hsame rule.priority
          rw [List.filter_cons_of_pos (by simp), List.filter_cons_of_pos (by simp [hpriority])]
            at hheads
          obtain ⟨rfl, -⟩ := List.cons.inj hheads
          have htails : ∀ priority, rules.filter (·.priority = priority) =
              others.filter (·.priority = priority) := by
            intro priority
            have hboth := hsame priority
            rw [List.filter_cons, List.filter_cons] at hboth
            split_ifs at hboth
            · exact (List.cons.inj hboth).2
            · exact hboth
          have hmem' : ∀ other, other ∈ rules ↔ other ∈ others := by
            intro other
            have hiff := congrArg (other ∈ ·) (htails other.priority)
            simpa using hiff
          rw [ih (List.pairwise_cons.mp hrules).2 (List.pairwise_cons.mp hothers).2 htails hmem']

/-- The rules of one list are at other places in the other, but those of equal priority have kept
their order. -/
def Reorders (rules others : List Rule) : Prop :=
  ∃ place : Fin rules.length ≃ Fin others.length, (∀ i, others[place i] = rules[i]) ∧
    ∀ i j, i < j → rules[i].priority = rules[j].priority → place i < place j

theorem filter_eq_map_finRange (rules : List Rule) (priority : Int) :
    rules.filter (·.priority = priority) =
      ((List.finRange rules.length).filter fun i => rules[i].priority = priority).map
        (rules[·]) := by
  conv_lhs => rw [← List.map_getElem_finRange rules, List.filter_map]
  rfl

/-- The places of the rules of one priority rise in both lists. -/
theorem Reorders.filter_eq {rules others : List Rule} (hreorders : Reorders rules others)
    (priority : Int) : rules.filter (·.priority = priority) =
      others.filter (·.priority = priority) := by
  obtain ⟨place, hplace, hkeeps⟩ := hreorders
  have hrises : (((List.finRange rules.length).filter fun i => rules[i].priority = priority).map
      place).Pairwise (· < ·) := by
    rw [List.pairwise_map]
    apply ((List.pairwise_lt_finRange _).filter _).imp_of_mem
    intro i j hi hj hlt
    have hi' : rules[i].priority = priority := by simpa using (List.mem_filter.mp hi).2
    have hj' : rules[j].priority = priority := by simpa using (List.mem_filter.mp hj).2
    exact hkeeps i j hlt (hi'.trans hj'.symm)
  have hrises' : ((List.finRange others.length).filter fun i =>
      others[i].priority = priority).Pairwise (· < ·) :=
    (List.pairwise_lt_finRange _).filter _
  have hmem : ∀ k, k ∈ ((List.finRange rules.length).filter fun i =>
      rules[i].priority = priority).map place ↔
        k ∈ (List.finRange others.length).filter fun i => others[i].priority = priority := by
    intro k
    obtain ⟨i, rfl⟩ := place.surjective k
    have hrule := hplace i
    rw [Fin.getElem_fin, Fin.getElem_fin] at hrule
    simp [hrule]
  have hplaces := List.Perm.eq_of_pairwise (fun i j _ _ hlt hgt => absurd hgt hlt.not_gt)
    hrises hrises' ((List.perm_ext_iff_of_nodup hrises.nodup hrises'.nodup).mpr hmem)
  rw [filter_eq_map_finRange rules, filter_eq_map_finRange others, ← hplaces, List.map_map]
  apply List.map_congr_left
  intro i _
  exact (hplace i).symm

theorem byPriority_of_reorders {rules others : List Rule} (hreorders : Reorders rules others) :
    byPriority others = byPriority rules := by
  have hrules := ranked_byPriority rules
  have hothers := ranked_byPriority others
  apply eq_of_falling hothers.falling hrules.falling
  intro priority
  rw [hothers.stable, hrules.stable, hreorders.filter_eq]

end Rule

namespace Runner

/-- Trying rules by priority is searching them for the first match, in the order of falling
priorities and, among equal priorities, of declaration.  Any other order of the priorities among the
rules leads to the same outcome and to the same store. -/
theorem evaluateRules_priority (runner : Runner) (rules : List Rule) (frame : FrameId)
    (resolution : ConflictResolution) (store : Store) :
    (∃ ordered, Rule.Ranked rules ordered ∧
      runner.evaluateRules rules frame .priority resolution store =
        runner.evaluateRules ordered frame .firstMatch resolution store ∧
      ∃ outcome after rest, runner.Search frame ordered store outcome after rest ∧
        runner.evaluateRules rules frame .priority resolution store =
          (outcome.map fun first => { found := first.toList }, after)) ∧
    ∀ others, Rule.Reorders rules others →
      runner.evaluateRules others frame .priority resolution store =
        runner.evaluateRules rules frame .priority resolution store := by
  have hsorted : ∀ rules, runner.evaluateRules rules frame .priority resolution store =
      runner.evaluateRules (Rule.byPriority rules) frame .firstMatch resolution store :=
    fun _ => rfl
  constructor
  · refine ⟨Rule.byPriority rules, Rule.ranked_byPriority rules, hsorted rules, ?_⟩
    obtain ⟨outcome, after, rest, hsearch⟩ :=
      exists_search runner frame (Rule.byPriority rules) store
    refine ⟨outcome, after, rest, hsearch, ?_⟩
    rw [hsorted, hsearch.evaluateRules_firstMatch]
  · intro others hreorders
    rw [hsorted, hsorted, Rule.byPriority_of_reorders hreorders]

/-- Rules that bind a name, see it, and bind it again; the last two are of equal priority. -/
def rankedRules : List Rule :=
  [seeingRule, { bindingRule with priority := 1 }, rebindingRule]

theorem evaluateRules_priority_seen :
    let others := [{ bindingRule with priority := 1 }, seeingRule, rebindingRule]
    Rule.Reorders rankedRules others ∧
      ∃ after, smallRunner.evaluateRules others 0 .priority .firstWins emptyRoot =
          (.ok { found := [seenMatch] }, after) ∧
        smallRunner.evaluateRules rankedRules 0 .priority .firstWins emptyRoot =
          (.ok { found := [seenMatch] }, after) := by
  intro others
  have hreorders : Rule.Reorders rankedRules others := by
    refine ⟨(Equiv.swap 0 1 : Equiv.Perm (Fin 3)), ?_, by decide⟩
    intro i
    fin_cases i <;> rfl
  have hsame := (evaluateRules_priority smallRunner rankedRules 0 .firstWins emptyRoot).2 others
    hreorders
  exact ⟨hreorders, _, rfl, hsame.symm.trans rfl⟩

end Runner
end Rulebook
