import ExactAlgebra.Proofs.Radical.Real
import Mathlib.Algebra.Order.Ring.Abs
import Mathlib.Tactic.LinearCombination

/-!
# Arithmetic of radicals as real numbers

Whatever an operation on radicals answers is the real number that its name says. Sums are the only
operation that can be refused although there is nothing wrong with the operands: unlike roots do not
add up to a radical.

## Main statements

* `real_abs`, `real_add`, `real_sub`, `real_mul`, `real_div`, `real_intPow` — the operations;
* `add_isOk_iff` — the sums that there are.
-/

namespace ExactAlgebra.Radical

variable {a b c : Radical}

/-! ## Zero and sign -/

theorem sqrt_radicand_pos (a : Radical) : 0 < √(a.radicand : ℝ) :=
  Real.sqrt_pos.mpr (Nat.cast_pos.mpr a.squareFree.pos)

/-- The root of a radicand squares to the radicand. -/
theorem sqrt_radicand_sq (a : Radical) : √(a.radicand : ℝ) * √(a.radicand : ℝ) = a.radicand :=
  Real.mul_self_sqrt (Nat.cast_nonneg _)

theorem isZero_iff (a : Radical) : a.isZero = true ↔ a.real = 0 := by
  unfold isZero real
  rw [decide_eq_true_eq, mul_eq_zero, or_iff_left a.sqrt_radicand_pos.ne', Rat.cast_eq_zero]

theorem real_abs (a : Radical) : a.abs.real = |a.real| := by
  have root := a.sqrt_radicand_pos.le
  rw [abs, real_ofParts, real, abs_mul, abs_of_nonneg root]
  split
  · rename_i negative
    have below : (a.coefficient : ℝ) < 0 := by exact_mod_cast negative
    rw [abs_of_neg below, Rat.cast_neg]
  · rename_i nonneg
    have above : (0 : ℝ) ≤ a.coefficient := by exact_mod_cast not_lt.mp nonneg
    rw [abs_of_nonneg above]

/-- A number under the root is not negative. -/
theorem nonneg_of_make {c r : ℚ} (made : make c r = .ok a) : 0 ≤ r := by
  unfold make at made
  split at made
  · cases made
  · rename_i nonneg
    exact not_lt.mp nonneg

/-! ## Sums -/

/-- **A sum.** -/
theorem real_add (sum : a.add b = .ok c) : c.real = a.real + b.real := by
  unfold add at sum
  split at sum
  · rename_i zero
    cases sum
    rw [b.isZero_iff.mp zero, add_zero]
  · split at sum
    · rename_i zero
      cases sum
      rw [a.isZero_iff.mp zero, zero_add]
    · split at sum
      · rename_i like
        cases sum
        rw [real_ofParts, real, real, ← like, Rat.cast_add, add_mul]
      · cases sum

/-- **A difference.** -/
theorem real_sub (difference : a.sub b = .ok c) : c.real = a.real - b.real := by
  rw [real_add difference, real_neg, sub_eq_add_neg]

/-- **Two radicals that are not zero have a sum** exactly if they have the same radicand. -/
theorem add_isOk_iff (ha : a.coefficient ≠ 0) (hb : b.coefficient ≠ 0) :
    (∃ c, a.add b = .ok c) ↔ a.radicand = b.radicand := by
  have hasSome : a.isZero = false ∧ b.isZero = false := by simp [isZero, ha, hb]
  unfold add
  simp only [hasSome.1, hasSome.2, Bool.false_eq_true, if_false]
  split
  · rename_i like
    exact ⟨fun _ => like, fun _ => ⟨_, rfl⟩⟩
  · rename_i unlike
    constructor
    · rintro ⟨_, sum⟩
      cases sum
    · intro like
      exact absurd like unlike

/-! ## Products and quotients -/

/-- The root of a product of radicands. -/
theorem sqrt_radicands (a b : Radical) :
    √(((a.radicand : ℚ) * (b.radicand : ℚ) : ℚ) : ℝ) = √(a.radicand : ℝ) * √(b.radicand : ℝ) := by
  rw [Rat.cast_mul, Rat.cast_natCast, Rat.cast_natCast, Real.sqrt_mul (Nat.cast_nonneg _)]

/-- **A product.** -/
theorem real_mul (product : a.mul b = .ok c) : c.real = a.real * b.real := by
  rw [real_make product, sqrt_radicands, real, real, Rat.cast_mul]
  ring

/-- **A quotient.** A divisor that is zero has none. -/
theorem real_div (quotient : a.div b = .ok c) : b.real ≠ 0 ∧ c.real = a.real / b.real := by
  unfold div at quotient
  split at quotient
  · cases quotient
  · rename_i some
    have nonzero : b.real ≠ 0 := fun zero => some (b.isZero_iff.mpr zero)
    refine ⟨nonzero, ?_⟩
    have below : (b.coefficient : ℝ) * (b.radicand : ℝ) ≠ 0 :=
      mul_ne_zero (left_ne_zero_of_mul nonzero) (Nat.cast_ne_zero.mpr b.squareFree.pos.ne')
    rw [real_make quotient, sqrt_radicands, Rat.cast_div, Rat.cast_mul, Rat.cast_natCast,
      div_mul_eq_mul_div, div_eq_div_iff below nonzero, real, real]
    -- the root that the divisor brings in makes its own root rational
    linear_combination
      (a.coefficient : ℝ) * √(a.radicand : ℝ) * b.coefficient * b.sqrt_radicand_sq

theorem real_inv (nonzero : a.real ≠ 0) : a.inv.real = a.real⁻¹ := by
  have below : (a.coefficient : ℝ) * (a.radicand : ℝ) ≠ 0 :=
    mul_ne_zero (left_ne_zero_of_mul nonzero) (Nat.cast_ne_zero.mpr a.squareFree.pos.ne')
  rw [inv, real_ofParts, Rat.cast_div, Rat.cast_one, Rat.cast_mul, Rat.cast_natCast,
    div_mul_eq_mul_div, one_mul, inv_eq_one_div, div_eq_div_iff below nonzero, real]
  linear_combination (a.coefficient : ℝ) * a.sqrt_radicand_sq

/-! ## Powers -/

/-- **A natural power**: pairs of roots are rational, and one root is left over if the exponent is
odd. -/
theorem real_natPow (a : Radical) (n : Nat) : (a.natPow n).real = a.real ^ n := by
  have pairs : (a.radicand : ℝ) ^ (n / 2) = √(a.radicand : ℝ) ^ (2 * (n / 2)) := by
    rw [pow_mul, pow_two, a.sqrt_radicand_sq]
  unfold natPow
  simp only [Rational.natPower_eq]
  split
  · rename_i odd
    rw [real_ofParts, real, mul_pow, Rat.cast_mul, Rat.cast_pow, Rat.cast_pow, Rat.cast_natCast,
      pairs, mul_assoc, ← pow_succ]
    congr 2
    omega
  · rename_i even
    rw [real_ofRat, real, mul_pow, Rat.cast_mul, Rat.cast_pow, Rat.cast_pow, Rat.cast_natCast, pairs]
    congr 2
    omega

/-- **An integer power.** Zero has no negative ones. -/
theorem real_intPow {n : Int} (power : a.intPow n = .ok b) :
    (n < 0 → a.real ≠ 0) ∧ b.real = a.real ^ n := by
  unfold intPow at power
  split at power
  · rename_i nonneg
    cases power
    refine ⟨fun negative => absurd nonneg (not_le.mpr negative), ?_⟩
    rw [real_natPow, ← zpow_natCast, Int.natAbs_of_nonneg nonneg]
  · rename_i negative
    split at power
    · cases power
    · rename_i some
      cases power
      have nonzero : a.real ≠ 0 := fun zero => some (a.isZero_iff.mpr zero)
      refine ⟨fun _ => nonzero, ?_⟩
      have opposite : (n.natAbs : ℤ) = -n := by omega
      rw [real_natPow, real_inv nonzero, inv_pow, ← zpow_natCast, opposite, zpow_neg, inv_inv]

end ExactAlgebra.Radical
