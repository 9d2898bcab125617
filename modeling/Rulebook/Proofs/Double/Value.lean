import Mathlib
import Rulebook.Double.Exact

/-!
# The number that a double stands for

The fields of a double say which number on the extended real line it stands for.  The exact value
that doubles and whole numbers are compared by is a count of units; such counts are in the order of
the numbers that they stand for, and differ only if these do.
-/

namespace Rulebook
namespace Double

/-- The number that a double stands for, by the fields of its format; a NaN stands for none. -/
noncomputable def value? (x : Float) : Option EReal :=
  let sign : ℝ := if isNegative x then -1 else 1
  if exponentField x = 2047 then
    if fractionField x = 0 then some (if isNegative x then ⊥ else ⊤) else none
  else if exponentField x = 0 then
    some ((sign * fractionField x * (2 : ℝ) ^ (-1074 : ℤ) : ℝ) : EReal)
  else
    some ((sign * (2 ^ 52 + fractionField x) * (2 : ℝ) ^ ((exponentField x : ℤ) - 1075) : ℝ) :
      EReal)

theorem cast_pow_two (n : Nat) : ((Nat.pow 2 n : Nat) : ℝ) = (2 : ℝ) ^ (n : ℤ) := by
  rw [Nat.pow_eq, Nat.cast_pow, Nat.cast_ofNat, zpow_natCast]

namespace Magnitude

/-- The number that a count of units stands for. -/
noncomputable def value : Magnitude → EReal
  | .negativeInfinity => ⊥
  | .finite units => ((units * (2 : ℝ) ^ (-1074 : ℤ) : ℝ) : EReal)
  | .positiveInfinity => ⊤

theorem value_ofInt (n : Int) : (ofInt n).value = ((n : ℝ) : EReal) := by
  have hunits : (unitsInOne : ℝ) * (2 : ℝ) ^ (-1074 : ℤ) = 1 := by
    simp only [unitsInOne, cast_pow_two]
    rw [← zpow_add₀ two_ne_zero, Nat.cast_ofNat, add_neg_cancel, zpow_zero]
  rw [ofInt, value, Int.cast_mul, Int.cast_natCast, mul_assoc, hunits, mul_one]

theorem value_finite_lt_iff (a b : Int) : (finite a).value < (finite b).value ↔ a < b := by
  have hpos : (0 : ℝ) < (2 : ℝ) ^ (-1074 : ℤ) := zpow_pos two_pos _
  rw [value, value, EReal.coe_lt_coe_iff, mul_lt_mul_iff_left₀ hpos, Int.cast_lt]

theorem lt_eq_decide (a b : Magnitude) : a.lt b = decide (a.value < b.value) := by
  rw [Bool.eq_iff_iff, decide_eq_true_eq]
  cases a with
  | negativeInfinity =>
      cases b with
      | negativeInfinity => simp [lt]
      | finite b => exact iff_of_true rfl (EReal.bot_lt_coe _)
      | positiveInfinity => exact iff_of_true rfl bot_lt_top
  | finite a =>
      cases b with
      | negativeInfinity => exact iff_of_false Bool.false_ne_true not_lt_bot
      | finite b => rw [value_finite_lt_iff, lt, decide_eq_true_eq]
      | positiveInfinity => exact iff_of_true rfl (EReal.coe_lt_top _)
  | positiveInfinity => cases b <;> exact iff_of_false Bool.false_ne_true not_top_lt

theorem value_injective : Function.Injective value := by
  intro a b hvalue
  have htotal : a = b ∨ a.lt b = true ∨ b.lt a = true := by
    cases a <;> cases b <;> simp only [lt, reduceCtorEq, false_or, or_true, true_or]
    simp only [finite.injEq, decide_eq_true_eq]
    omega
  rcases htotal with heq | hlt | hlt
  · exact heq
  · rw [lt_eq_decide, decide_eq_true_eq, hvalue] at hlt
    exact absurd hlt (lt_irrefl _)
  · rw [lt_eq_decide, decide_eq_true_eq, hvalue] at hlt
    exact absurd hlt (lt_irrefl _)

end Magnitude

/-- The exact value of a double stands for the number that its fields do. -/
theorem value?_eq_map_magnitude? (x : Float) : value? x = (magnitude? x).map Magnitude.value := by
  rw [value?, magnitude?]
  by_cases hfull : exponentField x = 2047
  · simp only [hfull, if_true]
    split_ifs <;> rfl
  · have hsigned : ∀ n : Nat, (((if isNegative x then -(n : Int) else n) : Int) : ℝ) =
        (if isNegative x then -1 else 1) * (n : ℝ) := by
      intro n
      split_ifs <;> simp
    simp only [hfull, if_false, Option.map_some, Magnitude.value, hsigned]
    rw [Nat.cast_mul, cast_pow_two, significand, shift]
    by_cases hsubnormal : exponentField x = 0
    · simp [hsubnormal]
    · have hscale : (2 : ℝ) ^ ((exponentField x - 1 : Nat) : ℤ) * (2 : ℝ) ^ (-1074 : ℤ) =
          (2 : ℝ) ^ ((exponentField x : ℤ) - 1075) := by
        rw [← zpow_add₀ two_ne_zero]
        congr 1
        omega
      rw [if_neg hsubnormal, if_neg hsubnormal, Nat.cast_add, cast_pow_two 52, zpow_natCast,
        ← hscale]
      refine congrArg (fun r : ℝ => some (r : EReal)) ?_
      ring

end Double
end Rulebook
