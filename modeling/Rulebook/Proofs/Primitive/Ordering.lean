import Rulebook.Primitive.Core
import Rulebook.Proofs.Double.Value

/-!
# Comparisons of many operands

A comparison looks at neighbours only.  Numbers are compared by the exact numbers that they stand
for, whatever their kind, and texts by their characters.  Both are keys on a line, and on a line the
relations of the comparisons are transitive: if all neighbours are related, so are all pairs.  Hence
operands pass a comparison exactly if they are sorted.
-/

namespace Rulebook

/-! ## Keys -/

/-- The number that a scalar stands for.  Truth values are zero and one, and a NaN is no number. -/
noncomputable def Scalar.value? : Scalar → Option EReal
  | .bool b => some (if b then 1 else 0)
  | .int n => some ((n : ℝ) : EReal)
  | .float x => Double.value? x
  | _ => none

/-- The number that a term stands for. -/
noncomputable def Term.value? : Term → Option EReal
  | .scalar s => s.value?
  | _ => none

namespace Scalar

open Double (Magnitude)

theorem value?_eq_map_magnitude? (s : Scalar) : s.value? = s.magnitude?.map Magnitude.value := by
  cases s with
  | bool b =>
      have hvalue := Magnitude.value_ofInt b.toInt
      have hmagnitude : (Scalar.bool b).magnitude? = some (Magnitude.ofInt b.toInt) := rfl
      rw [hmagnitude, Option.map_some, hvalue]
      cases b <;> simp [value?]
  | int n => exact (congrArg some (Magnitude.value_ofInt n)).symm
  | float x => exact Double.value?_eq_map_magnitude? x
  | _ => rfl

variable {a b : Scalar}

theorem compare?_of_magnitude? {m n : Magnitude} (comparison : Comparison)
    (ha : a.magnitude? = some m) (hb : b.magnitude? = some n) :
    a.compare? comparison b = some (comparison.holds Magnitude.lt m n) := by
  rw [magnitude?, Option.bind_eq_some_iff] at ha hb
  obtain ⟨first, hfirst, hm⟩ := ha
  obtain ⟨second, hsecond, hn⟩ := hb
  unfold compare?
  split
  · cases hfirst
  · simp only [hfirst, hsecond, hm, hn]

theorem equal_of_magnitude? {m n : Magnitude} (ha : a.magnitude? = some m)
    (hb : b.magnitude? = some n) : a.equal b = (m == n) := by
  unfold equal
  split
  · cases ha
  · cases ha
  · cases ha
  · simp only [ha, hb]

end Scalar

namespace Term

theorem exists_of_value? {term : Term} {x : EReal} (hvalue : term.value? = some x) :
    ∃ s m, term = .scalar s ∧ s.magnitude? = some m ∧ m.value = x := by
  cases term with
  | scalar s =>
      rw [value?, Scalar.value?_eq_map_magnitude?, Option.map_eq_some_iff] at hvalue
      obtain ⟨m, hm, hx⟩ := hvalue
      exact ⟨s, m, rfl, hm, hx⟩
  | _ => cases hvalue

theorem eq_str_or_kind_of_text? {term : Term} {s : String} (htext : term.text? = some s) :
    term = .str s ∨ ∃ k : NodeKind, term = .kind k ∧ k.word = s := by
  unfold text? at htext
  split at htext
  · cases htext
    exact Or.inl rfl
  · cases htext
    exact Or.inr ⟨_, rfl, rfl⟩
  · cases htext

end Term

theorem NodeKind.word_injective : Function.Injective NodeKind.word := by
  intro k l hword
  cases k <;> cases l <;> first | rfl | exact absurd hword (by decide)

/-! ## Relations on a line -/

namespace Comparison

def primitive : Comparison → CorePrimitive
  | .less => .less
  | .greater => .greater
  | .atMost => .atMost
  | .atLeast => .atLeast

/-- The relation on a line that a comparison is about. -/
def Relates [LinearOrder α] : Comparison → α → α → Prop
  | .less => (· < ·)
  | .greater => (· > ·)
  | .atMost => (· ≤ ·)
  | .atLeast => (· ≥ ·)

theorem apply_primitive (comparison : Comparison) (operands : List Term) :
    comparison.primitive.apply operands =
      CorePrimitive.chained (CorePrimitive.compare comparison) operands := by
  cases comparison <;> rfl

theorem apply_int (comparison : Comparison) (m n : Int) :
    comparison.primitive.apply [.int m, .int n] =
      .ok (.bool (comparison.holds (fun x y => decide (x < y)) m n)) := by
  have hlt : ∀ m n : Int, Double.Magnitude.lt (.ofInt m) (.ofInt n) = decide (m < n) := by
    intro m n
    rw [Double.Magnitude.lt_eq_decide, Double.Magnitude.value_ofInt, Double.Magnitude.value_ofInt,
      decide_eq_decide, EReal.coe_lt_coe_iff, Int.cast_lt]
  have hcompare : (Term.int m).compare? comparison (.int n) =
      some (comparison.holds (fun x y => decide (x < y)) m n) := by
    rw [Term.compare?, Scalar.compare?_of_magnitude? comparison rfl rfl]
    cases comparison <;> simp only [holds, hlt]
  rw [apply_primitive, CorePrimitive.chained, CorePrimitive.neighbours, CorePrimitive.compare,
    hcompare]
  cases comparison.holds (fun x y => decide (x < y)) m n <;> rfl

variable [LinearOrder α]

theorem holds_iff (comparison : Comparison) (x y : α) :
    comparison.holds (fun x y => decide (x < y)) x y = true ↔ comparison.Relates x y := by
  cases comparison <;> simp [holds, Relates]

instance (comparison : Comparison) :
    Trans (comparison.Relates (α := α)) (comparison.Relates (α := α))
      (comparison.Relates (α := α)) where
  trans := by
    cases comparison with
    | less => exact lt_trans
    | greater => exact fun hab hbc => lt_trans hbc hab
    | atMost => exact le_trans
    | atLeast => exact fun hab hbc => le_trans hbc hab

end Comparison

/-- Terms that have keys on a line are compared as the keys are. -/
structure ComparedBy [LinearOrder α] (key : Term → Option α) : Prop where
  compare : ∀ {a b x y}, key a = some x → key b = some y → ∀ comparison : Comparison,
    ∃ holds, CorePrimitive.compare comparison a b = .ok holds ∧
      (holds = true ↔ comparison.Relates x y)
  equal : ∀ {a b x y}, key a = some x → key b = some y → (a.equal b = true ↔ x = y)

theorem comparedBy_value? : ComparedBy Term.value? where
  compare ha hb comparison := by
    obtain ⟨s, m, rfl, hm, rfl⟩ := Term.exists_of_value? ha
    obtain ⟨t, n, rfl, hn, rfl⟩ := Term.exists_of_value? hb
    refine ⟨comparison.holds Double.Magnitude.lt m n, ?_, ?_⟩
    · rw [CorePrimitive.compare, Term.compare?, Scalar.compare?_of_magnitude? comparison hm hn]
    · rw [← comparison.holds_iff]
      cases comparison <;> simp only [Comparison.holds, Double.Magnitude.lt_eq_decide]
  equal ha hb := by
    obtain ⟨s, m, rfl, hm, rfl⟩ := Term.exists_of_value? ha
    obtain ⟨t, n, rfl, hn, rfl⟩ := Term.exists_of_value? hb
    rw [Term.equal, Scalar.equal_of_magnitude? hm hn, beq_iff_eq]
    exact Double.Magnitude.value_injective.eq_iff.symm

theorem comparedBy_text? : ComparedBy Term.text? where
  compare {a b x y} ha hb comparison := by
    refine ⟨comparison.holds (fun s t => decide (s < t)) x y, ?_, comparison.holds_iff x y⟩
    rcases Term.eq_str_or_kind_of_text? ha with rfl | ⟨k, rfl, rfl⟩ <;>
      rcases Term.eq_str_or_kind_of_text? hb with rfl | ⟨l, rfl, rfl⟩ <;> rfl
  equal ha hb := by
    rcases Term.eq_str_or_kind_of_text? ha with rfl | ⟨k, rfl, rfl⟩ <;>
      rcases Term.eq_str_or_kind_of_text? hb with rfl | ⟨l, rfl, rfl⟩
    · simp [Term.equal, Scalar.equal]
    · simp [Term.equal]
    · simp [Term.equal]
    · rw [Term.equal, beq_iff_eq]
      exact NodeKind.word_injective.eq_iff.symm

/-! ## Sorted operands -/

namespace CorePrimitive

variable {key : Term → Option α} {R : α → α → Prop}

/-- Going through neighbours decides whether the keys are a chain. -/
theorem exists_neighbours {related : Term → Term → Except Fault Bool}
    (hrelated : ∀ {a b x y}, key a = some x → key b = some y →
      ∃ holds, related a b = .ok holds ∧ (holds = true ↔ R x y))
    {operands : List Term} {keys : List α} (hkeys : operands.map key = keys.map some) :
    ∃ holds, neighbours related operands = .ok holds ∧ (holds = true ↔ keys.IsChain R) := by
  induction operands generalizing keys with
  | nil =>
      rw [List.map_nil, eq_comm, List.map_eq_nil_iff] at hkeys
      exact ⟨true, rfl, by simp [hkeys]⟩
  | cons a rest ih =>
      obtain ⟨x, others, rfl, ha, hrest⟩ := List.map_eq_cons_iff.mp hkeys.symm
      cases rest with
      | nil =>
          rw [List.map_nil, List.map_eq_nil_iff] at hrest
          exact ⟨true, rfl, by simp [hrest]⟩
      | cons b rest =>
          obtain ⟨y, more, rfl, hb, -⟩ := List.map_eq_cons_iff.mp hrest
          obtain ⟨first, hfirst, hholds⟩ := hrelated ha.symm hb.symm
          obtain ⟨later, hlater, hchain⟩ := ih hrest.symm
          refine ⟨first && later, ?_, ?_⟩
          · rw [neighbours, hfirst]
            cases first with
            | true => exact hlater
            | false => rfl
          · rw [Bool.and_eq_true, hholds, hchain, List.isChain_cons_cons]

/-- A chain of a transitive relation relates all pairs. -/
theorem exists_chained [Trans R R R] {related : Term → Term → Except Fault Bool}
    (hrelated : ∀ {a b x y}, key a = some x → key b = some y →
      ∃ holds, related a b = .ok holds ∧ (holds = true ↔ R x y))
    {operands : List Term} {keys : List α} (hkeys : operands.map key = keys.map some) :
    ∃ holds, chained related operands = .ok (.bool holds) ∧
      (holds = true ↔ keys.Pairwise R) := by
  obtain ⟨holds, hneighbours, hchain⟩ := exists_neighbours hrelated hkeys
  refine ⟨holds, ?_, hchain.trans List.isChain_iff_pairwise⟩
  rw [chained, hneighbours]
  rfl

/-- What comparisons say of operands that have keys on a line: whether every operand is related to
all that come after it. -/
structure SortedBy [LinearOrder α] (key : Term → Option α) : Prop where
  sorted : ∀ {operands : List Term} {keys : List α}, operands.map key = keys.map some →
    ∀ comparison : Comparison, ∃ holds, comparison.primitive.apply operands = .ok (.bool holds) ∧
      (holds = true ↔ keys.Pairwise comparison.Relates)
  alike : ∀ {operands : List Term} {keys : List α}, operands.map key = keys.map some →
    ∃ holds, equal.apply operands = .ok (.bool holds) ∧ (holds = true ↔ keys.Pairwise (· = ·))
  reversed : ∀ {operands : List Term} {keys : List α}, operands.map key = keys.map some →
    less.apply operands = greater.apply operands.reverse ∧
      atMost.apply operands = atLeast.apply operands.reverse
  trichotomy : ∀ {a b : Term} {x y : α}, key a = some x → key b = some y →
    ∃! operation, operation ∈ [less, equal, greater] ∧ operation.apply [a, b] = .ok (.bool true)
  negated : ∀ {a b : Term} {x y : α}, key a = some x → key b = some y →
    (∃ holds, greater.apply [a, b] = .ok (.bool holds) ∧
      atMost.apply [a, b] = .ok (.bool !holds)) ∧
    ∃ holds, equal.apply [a, b] = .ok (.bool holds) ∧
      notEqual.apply [a, b] = .ok (.bool !holds)

section Sorted

variable [LinearOrder α] {key : Term → Option α} (hkey : ComparedBy key)
include hkey

theorem exists_sorted {operands : List Term} {keys : List α}
    (hkeys : operands.map key = keys.map some) (comparison : Comparison) :
    ∃ holds, comparison.primitive.apply operands = .ok (.bool holds) ∧
      (holds = true ↔ keys.Pairwise comparison.Relates) := by
  rw [comparison.apply_primitive]
  exact exists_chained (fun ha hb => hkey.compare ha hb comparison) hkeys

theorem exists_alike {operands : List Term} {keys : List α}
    (hkeys : operands.map key = keys.map some) :
    ∃ holds, equal.apply operands = .ok (.bool holds) ∧
      (holds = true ↔ keys.Pairwise (· = ·)) :=
  exists_chained (fun {a b _ _} ha hb => ⟨a.equal b, rfl, hkey.equal ha hb⟩) hkeys

/-- Reading the operands backwards turns a comparison around. -/
theorem apply_reverse {operands : List Term} {keys : List α}
    (hkeys : operands.map key = keys.map some) (comparison opposite : Comparison)
    (hopposite : ∀ x y : α, comparison.Relates x y ↔ opposite.Relates y x) :
    comparison.primitive.apply operands = opposite.primitive.apply operands.reverse := by
  have hback : operands.reverse.map key = keys.reverse.map some := by
    rw [List.map_reverse, hkeys, List.map_reverse]
  obtain ⟨first, hfirst, hsorted⟩ := exists_sorted hkey hkeys comparison
  obtain ⟨second, hsecond, hsorted'⟩ := exists_sorted hkey hback opposite
  have hsame : first = second := by
    rw [Bool.eq_iff_iff, hsorted, hsorted', List.pairwise_reverse]
    exact List.Pairwise.iff hopposite
  rw [hfirst, hsecond, hsame]

section Pair

variable {a b : Term} {x y : α} (ha : key a = some x) (hb : key b = some y)
include ha hb

theorem exists_pair (comparison : Comparison) :
    ∃ holds, comparison.primitive.apply [a, b] = .ok (.bool holds) ∧
      (holds = true ↔ comparison.Relates x y) := by
  have hkeys : [a, b].map key = [x, y].map some := by simp [ha, hb]
  obtain ⟨holds, happly, hsorted⟩ := exists_sorted hkey hkeys comparison
  exact ⟨holds, happly, hsorted.trans List.pairwise_pair⟩

theorem pair_iff (comparison : Comparison) :
    comparison.primitive.apply [a, b] = .ok (.bool true) ↔ comparison.Relates x y := by
  obtain ⟨holds, happly, hrelates⟩ := exists_pair hkey ha hb comparison
  rw [happly, ← hrelates]
  simp

theorem exists_pair_alike :
    ∃ holds, equal.apply [a, b] = .ok (.bool holds) ∧ (holds = true ↔ x = y) := by
  have hkeys : [a, b].map key = [x, y].map some := by simp [ha, hb]
  obtain ⟨holds, happly, halike⟩ := exists_alike hkey hkeys
  exact ⟨holds, happly, halike.trans List.pairwise_pair⟩

/-- Of two operands the first is below the second, or as great, or above it. -/
theorem trichotomy : ∃! operation,
    operation ∈ [less, equal, greater] ∧ operation.apply [a, b] = .ok (.bool true) := by
  have hless : less.apply [a, b] = .ok (.bool true) ↔ x < y := pair_iff hkey ha hb .less
  have hgreater : greater.apply [a, b] = .ok (.bool true) ↔ y < x := pair_iff hkey ha hb .greater
  have hequal : equal.apply [a, b] = .ok (.bool true) ↔ x = y := by
    obtain ⟨holds, happly, halike⟩ := exists_pair_alike hkey ha hb
    rw [happly, ← halike]
    simp
  have hoperation : ∀ operation,
      operation ∈ [less, equal, greater] ∧ operation.apply [a, b] = .ok (.bool true) ↔
        operation = less ∧ x < y ∨ operation = equal ∧ x = y ∨ operation = greater ∧ y < x := by
    intro operation
    rw [← hless, ← hequal, ← hgreater]
    simp only [List.mem_cons, List.not_mem_nil, or_false, or_and_right]
    grind
  simp only [hoperation]
  rcases lt_trichotomy x y with hlt | heq | hgt
  · simp [hlt, hlt.ne, hlt.not_gt]
  · simp [heq]
  · simp [hgt, hgt.ne', hgt.not_gt]

/-- Of two operands, the first is at most the second if it is not greater. -/
theorem negated :
    (∃ holds, greater.apply [a, b] = .ok (.bool holds) ∧
      atMost.apply [a, b] = .ok (.bool !holds)) ∧
    ∃ holds, equal.apply [a, b] = .ok (.bool holds) ∧
      notEqual.apply [a, b] = .ok (.bool !holds) := by
  obtain ⟨above, hgreater, habove⟩ := exists_pair hkey ha hb .greater
  obtain ⟨below, hatMost, hbelow⟩ := exists_pair hkey ha hb .atMost
  obtain ⟨same, hequal, hsame⟩ := exists_pair_alike hkey ha hb
  refine ⟨⟨above, hgreater, ?_⟩, same, hequal, ?_⟩
  · have hnot : below = !above := by
      rw [Bool.eq_iff_iff, hbelow, Bool.not_eq_true', Bool.eq_false_iff, ne_eq, habove]
      exact not_lt.symm
    rw [← hnot]
    exact hatMost
  · have hpair : same = a.equal b := by
      rw [Bool.eq_iff_iff, hsame, hkey.equal ha hb]
    rw [hpair]
    rfl

end Pair

theorem sortedBy_of_comparedBy : SortedBy key where
  sorted := exists_sorted hkey
  alike := exists_alike hkey
  reversed hkeys :=
    ⟨apply_reverse hkey hkeys .less .greater fun _ _ => Iff.rfl,
      apply_reverse hkey hkeys .atMost .atLeast fun _ _ => Iff.rfl⟩
  trichotomy := trichotomy hkey
  negated := negated hkey

end Sorted

/-- A comparison of numbers, or of texts, holds exactly if the operands are sorted in its way. -/
theorem sortedBy_value?_and_text? : SortedBy Term.value? ∧ SortedBy Term.text? :=
  ⟨sortedBy_of_comparedBy comparedBy_value?, sortedBy_of_comparedBy comparedBy_text?⟩

end CorePrimitive

end Rulebook
