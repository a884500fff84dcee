import ExactAlgebra.Proofs.Radical.Rational
import Mathlib.Analysis.Real.Sqrt

/-!
# Radicals as real numbers

A radical denotes the real number `coefficient · √radicand`. Making a radical from a rational under
the root does not change that number.

## Main statements

* `real_make`, `real_sqrt` — simplification keeps the value.

## Main definitions

* `Radical.real` — the real number.
-/

namespace ExactAlgebra.Radical

/-- **The real number that a radical denotes.** -/
noncomputable def real (a : Radical) : ℝ :=
  a.coefficient * √(a.radicand : ℝ)

@[simp]
theorem real_ofRat (q : ℚ) : (ofRat q).real = q := by
  simp [real, ofRat]

theorem real_ofParts (c : ℚ) (m : Nat) (h : SquareFree m) :
    (ofParts c m h).real = c * √(m : ℝ) := by
  rw [ofParts]
  split
  · rename_i zero
    rw [zero]
    simp
  · rfl

@[simp]
theorem real_neg (a : Radical) : a.neg.real = -a.real := by
  rw [neg, real_ofParts, real, Rat.cast_neg, neg_mul]

/-- A square root of a rational, from the square part and the square-free part of the product of
numerator and denominator. -/
theorem sqrt_of_splitSquare {r : ℚ} (nonneg : 0 ≤ r) {k m : Nat}
    (split : k * k * m = r.num.natAbs * r.den) : √(r : ℝ) = (k : ℝ) / r.den * √(m : ℝ) := by
  have denominator : (r.den : ℝ) ≠ 0 := Nat.cast_ne_zero.mpr r.den_nz
  have numerator : ((r.num.natAbs : ℕ) : ℝ) = r * r.den := by
    rw [Nat.cast_natAbs, abs_of_nonneg (Rat.num_nonneg.mpr nonneg)]
    exact_mod_cast (Rat.mul_den_eq_num r).symm
  have parts : (k : ℝ) * k * m = r * r.den * r.den := by
    rw [← numerator]
    exact_mod_cast split
  have root : (0 : ℝ) ≤ (k : ℝ) / r.den * √(m : ℝ) := by positivity
  rw [Real.sqrt_eq_iff_mul_self_eq (by exact_mod_cast nonneg) root, eq_comm]
  calc (k : ℝ) / r.den * √(m : ℝ) * ((k : ℝ) / r.den * √(m : ℝ))
      = (k : ℝ) * k * (√(m : ℝ) * √(m : ℝ)) / (r.den * r.den) := by ring
    _ = r := by
      rw [Real.mul_self_sqrt (Nat.cast_nonneg m), parts]
      field_simp

/-- **Simplification keeps the value.** -/
theorem real_make {c r : ℚ} {a : Radical} (made : make c r = .ok a) :
    a.real = c * √(r : ℝ) := by
  rw [make] at made
  split at made
  · cases made
  · rename_i nonneg
    split at made
    · rename_i zero
      cases made
      rcases zero with rfl | rfl <;> simp
    · split at made
      · cases made
      · rename_i k m found
        obtain rfl := Except.ok.inj made
        rw [real_ofParts, sqrt_of_splitSquare (not_lt.mp nonneg) (splitSquare_eq found)]
        push_cast
        ring

/-- **The square root of a rational.** -/
theorem real_sqrt {q : ℚ} {a : Radical} (made : sqrt q = .ok a) : a.real = √(q : ℝ) := by
  rw [real_make made, Rat.cast_one, one_mul]

end ExactAlgebra.Radical
