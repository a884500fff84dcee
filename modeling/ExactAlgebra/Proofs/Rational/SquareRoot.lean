import ExactAlgebra.Rational.Basic
import Mathlib.Algebra.Order.Field.Basic
import Mathlib.Algebra.Order.Field.Rat
import Mathlib.Data.Nat.Sqrt
import Mathlib.Data.Rat.Lemmas
import Mathlib.Tactic.Ring

/-!
# Exact square roots

The square root of a rational is found whenever it is rational: in lowest terms numerator and
denominator of a square are squares.

## Main statements

* `sqrt?_eq_some_iff` — the square root that is found;
* `sqrt?_mul` — the square root of a multiple by a square.
-/

namespace ExactAlgebra.Rational

theorem natSqrt_sq {n : Nat} (square : isSquare n = true) : (n.sqrt : ℚ) * n.sqrt = n := by
  rw [isSquare, decide_eq_true_eq] at square
  exact_mod_cast square

theorem isSquare_mul_self (n : Nat) : isSquare (n * n) = true := by
  rw [isSquare, decide_eq_true_eq, Nat.sqrt_eq]

/-- **The exact square root** is the one that is not negative, and it is found whenever it is
rational. -/
theorem sqrt?_eq_some_iff {q r : ℚ} : sqrt? q = some r ↔ 0 ≤ r ∧ r * r = q := by
  constructor
  · intro root
    unfold sqrt? at root
    split at root
    · cases root
    · rename_i nonneg
      simp only [Option.ite_none_right_eq_some, Bool.and_eq_true, Option.some.injEq] at root
      obtain ⟨⟨numerator, denominator⟩, rfl⟩ := root
      have natAbs : ((q.num.natAbs : ℕ) : ℚ) = q.num := by
        rw [Nat.cast_natAbs, abs_of_nonneg (Rat.num_nonneg.mpr (not_lt.mp nonneg))]
      refine ⟨div_nonneg (Nat.cast_nonneg _) (Nat.cast_nonneg _), ?_⟩
      rw [div_mul_div_comm, natSqrt_sq numerator, natSqrt_sq denominator, natAbs]
      exact Rat.num_div_den q
  · rintro ⟨nonneg, rfl⟩
    have numerator : (r.num.natAbs : ℤ) = r.num := Int.natAbs_of_nonneg (Rat.num_nonneg.mpr nonneg)
    have value : ((r.num.natAbs : ℕ) : ℚ) / r.den = r := by
      rw [← Int.cast_natCast, numerator, Rat.num_div_den]
    unfold sqrt?
    rw [if_neg (not_lt.mpr (mul_self_nonneg r)), Rat.mul_self_num, Rat.mul_self_den, Int.natAbs_mul]
    simp only [isSquare_mul_self, Nat.sqrt_eq, Bool.and_self, if_true, value]

/-- The square root is missing only where there is none. -/
theorem sqrt?_eq_none_iff {q : ℚ} : sqrt? q = none ↔ ¬ IsSquare q := by
  constructor
  · rintro missing ⟨r, rfl⟩
    have found : sqrt? (r * r) = some |r| := sqrt?_eq_some_iff.mpr ⟨abs_nonneg r, abs_mul_abs_self r⟩
    rw [missing] at found
    cases found
  · intro irrational
    cases found : sqrt? q with
    | none => rfl
    | some r => exact absurd ⟨r, (sqrt?_eq_some_iff.mp found).2.symm⟩ irrational

/-- **The square root of a multiple** by a square. -/
theorem sqrt?_mul {k : ℚ} (nonzero : k ≠ 0) (q : ℚ) :
    sqrt? (k * k * q) = (sqrt? q).map (|k| * ·) := by
  cases found : sqrt? q with
  | some r =>
    obtain ⟨nonneg, rfl⟩ := sqrt?_eq_some_iff.mp found
    apply sqrt?_eq_some_iff.mpr
    refine ⟨mul_nonneg (abs_nonneg k) nonneg, ?_⟩
    rw [mul_mul_mul_comm, abs_mul_abs_self]
  | none =>
    apply sqrt?_eq_none_iff.mpr
    rintro ⟨s, same⟩
    refine sqrt?_eq_none_iff.mp found ⟨s / k, ?_⟩
    rw [div_mul_div_comm, ← same, mul_div_cancel_left₀ q (mul_ne_zero nonzero nonzero)]

end ExactAlgebra.Rational
