import ExactAlgebra.Proofs.Radical.Arithmetic
import ExactAlgebra.Radical.Power
import Mathlib.Algebra.Order.Ring.Pow
import Mathlib.Analysis.SpecialFunctions.Pow.Real

/-!
# Rational powers as real numbers

The power `a ^ (p/q)`, in lowest terms, is the real number `y` with `y ^ q = a ^ p`, and the one that is
not negative if `q` is even. There is one such number at most. A negative number has powers too, if
the denominator is odd, and those are not the ones of Mathlib's `Real.rpow`.

## Main statements

* `IsPower.unique` — there is one power at most;
* `IsPower.mul_rpow` — the power of a multiple of a power of a positive number;
* `isPower_rationalPower`, `isPower_pow` — the powers that are computed.

## Main definitions

* `IsPower` — a real number is a rational power of another one.
-/

namespace ExactAlgebra.Radical

/-- **The real number `y` is the power `a ^ q`.** Zero has no negative powers, and its power with
exponent zero is one, as for any other number. -/
structure IsPower (a : ℝ) (q : ℚ) (y : ℝ) : Prop where
  base : q < 0 → a ≠ 0
  root : y ^ q.den = a ^ q.num
  nonneg : Even q.den → 0 ≤ y

namespace IsPower

variable {a y z : ℝ} {q : ℚ}

/-- **There is one power at most.** -/
theorem unique (hy : IsPower a q y) (hz : IsPower a q z) : y = z := by
  have same : y ^ q.den = z ^ q.den := hy.root.trans hz.root.symm
  rcases Nat.even_or_odd q.den with even | odd
  · exact (pow_left_inj₀ (hy.nonneg even) (hz.nonneg even) q.den_nz).mp same
  · exact odd.strictMono_pow.injective same

/-- A whole exponent. -/
theorem of_zpow (whole : q.den = 1) (base : q < 0 → a ≠ 0) : IsPower a q (a ^ q.num) where
  base := base
  root := by rw [whole, pow_one]
  nonneg := by
    intro even
    rw [whole] at even
    exact absurd even (by decide)

/-- Positive powers of zero. -/
theorem zero (positive : 0 < q) : IsPower 0 q 0 where
  base := fun negative => absurd positive (not_lt.mpr negative.le)
  root := by
    have numerator : q.num ≠ 0 := Rat.num_ne_zero.mpr positive.ne'
    rw [zero_pow q.den_nz, zero_zpow _ numerator]
  nonneg := fun _ => le_rfl

theorem one (q : ℚ) : IsPower 1 q 1 where
  base := fun _ => one_ne_zero
  root := by rw [one_pow, one_zpow]
  nonneg := fun _ => zero_le_one

/-- **The power of a product** with a power of a positive number. -/
theorem mul_rpow {x : ℝ} (positive : 0 < x) (p : ℚ) (power : IsPower a q y) :
    IsPower (a * x ^ (p : ℝ)) q (y * x ^ ((p * q : ℚ) : ℝ)) where
  base := by
    intro negative
    exact mul_ne_zero (power.base negative) (Real.rpow_pos_of_pos positive _).ne'
  root := by
    have exponents : ((p * q : ℚ) : ℝ) * (q.den : ℝ) = (p : ℝ) * (q.num : ℝ) := by
      have denominator := congrArg (fun r : ℚ => p * r) (Rat.mul_den_eq_num q)
      rw [← mul_assoc] at denominator
      exact_mod_cast denominator
    rw [mul_pow, mul_zpow, power.root, ← Real.rpow_natCast, ← Real.rpow_mul positive.le, exponents,
      Real.rpow_mul positive.le, Real.rpow_intCast]
  nonneg := fun even => mul_nonneg (power.nonneg even) (Real.rpow_pos_of_pos positive _).le

end IsPower

/-! ## Roots of natural numbers -/

theorem pow_of_rootBetween {n degree lo hi r : Nat} (found : rootBetween n degree lo hi = some r) :
    r ^ degree = n := by
  fun_induction rootBetween n degree lo hi with
  | case1 lo hi inside mid power hit =>
    obtain rfl := Option.some.inj found
    exact hit
  | case2 lo hi inside mid power miss below ih => exact ih found
  | case3 lo hi inside mid power miss above ih => exact ih found
  | case4 lo hi outside => cases found

/-- **An integer root that is found is one.** -/
theorem pow_of_integerRoot? {n degree r : Nat} (positive : degree ≠ 0)
    (found : integerRoot? n degree = some r) : r ^ degree = n := by
  unfold integerRoot? at found
  split at found
  · rename_i small
    obtain rfl := Option.some.inj found
    obtain rfl | rfl : n = 0 ∨ n = 1 := by omega
    · exact zero_pow positive
    · exact one_pow degree
  · split at found
    · cases found
    · exact pow_of_rootBetween found

/-! ## Powers of rationals and radicals -/

theorem intPower_eq (q : ℚ) (n : Int) : Rational.intPower q n = q ^ n := by
  unfold Rational.intPower
  rw [Rational.natPower_eq]
  split
  · rename_i nonneg
    rw [← zpow_natCast, Int.natAbs_of_nonneg nonneg]
  · have opposite : (n.natAbs : ℤ) = -n := by omega
    rw [← zpow_natCast, opposite, zpow_neg, inv_inv]

/-- The root of a rational, from the roots of its numerator and denominator. -/
theorem pow_div_eq_abs {q : ℚ} {degree n d : Nat} (numerator : n ^ degree = q.num.natAbs)
    (denominator : d ^ degree = q.den) : ((n : ℚ) / (d : ℚ)) ^ degree = |q| := by
  rw [div_pow]
  have above : ((n : ℚ)) ^ degree = |(q.num : ℚ)| := by
    rw [← Int.cast_abs, Int.abs_eq_natAbs, ← numerator]
    push_cast
    rfl
  have below : ((d : ℚ)) ^ degree = (q.den : ℚ) := by exact_mod_cast denominator
  rw [above, below]
  conv_rhs => rw [← Rat.num_div_den q, abs_div, Nat.abs_cast]

/-- **A root of the absolute value**, with the sign of the number. Only odd roots of a negative number
are real. -/
theorem IsPower.of_abs {b e r : ℚ} (base : (b : ℝ) ≠ 0) (nonneg : 0 ≤ r)
    (magnitude : r ^ e.den = |b ^ e.num|) (real : b ^ e.num < 0 → ¬ Even e.den) :
    IsPower b e ((if b ^ e.num < 0 then -r else r : ℚ) : ℝ) := by
  have cast : ((b ^ e.num : ℚ) : ℝ) = (b : ℝ) ^ e.num := Rat.cast_zpow b e.num
  split
  · rename_i negative
    have odd : Odd e.den := Nat.not_even_iff_odd.mp (real negative)
    refine ⟨fun _ => base, ?_, fun even => absurd even (real negative)⟩
    rw [abs_of_neg negative] at magnitude
    rw [← cast, ← Rat.cast_pow, odd.neg_pow, magnitude, neg_neg]
  · rename_i positive
    rw [abs_of_nonneg (not_lt.mp positive)] at magnitude
    refine ⟨fun _ => base, ?_, fun _ => by exact_mod_cast nonneg⟩
    rw [← cast, ← Rat.cast_pow, magnitude]

/-- **The exact power of a rational** is its power. -/
theorem isPower_rationalPower {b e : ℚ} {a : Radical} (power : rationalPower b e = .ok a) :
    IsPower b e a.real := by
  unfold rationalPower at power
  split at power
  · rename_i zero
    split at power
    · cases power
    · rename_i positive
      cases power
      rw [zero, real_ofRat, Rat.cast_zero]
      exact .zero (not_le.mp positive)
  · rename_i nonzero
    have base : (b : ℝ) ≠ 0 := Rat.cast_ne_zero.mpr nonzero
    simp only [intPower_eq] at power
    have cast : ((b ^ e.num : ℚ) : ℝ) = (b : ℝ) ^ e.num := Rat.cast_zpow b e.num
    split at power
    · rename_i whole
      cases power
      rw [real_ofRat, cast]
      exact .of_zpow whole fun _ => base
    · split at power
      · rename_i two
        -- a square root
        have nonneg : (0 : ℝ) ≤ (b : ℝ) ^ e.num := by
          rw [← cast]
          exact_mod_cast nonneg_of_make power
        refine ⟨fun _ => base, ?_, fun _ => ?_⟩
        · rw [real_sqrt power, cast, two, Real.sq_sqrt nonneg]
        · rw [real_sqrt power]
          exact Real.sqrt_nonneg _
      · split at power
        · cases power
        · rename_i real
          split at power
          · rename_i n d numerator denominator
            cases power
            have magnitude := pow_div_eq_abs (pow_of_integerRoot? e.den_nz numerator)
              (pow_of_integerRoot? e.den_nz denominator)
            rw [real_ofRat]
            exact .of_abs base (by positivity) magnitude fun negative even =>
              real ⟨negative, Nat.even_iff.mp even⟩
          · cases power

/-- An integer power of a radical is its power. -/
theorem isPower_intPow {a b : Radical} {e : ℚ} (whole : e.den = 1)
    (power : a.intPow e.num = .ok b) : IsPower a.real e b.real := by
  obtain ⟨base, value⟩ := real_intPow power
  rw [value]
  exact .of_zpow whole fun negative => base (Rat.num_neg.mpr negative)

/-- **A power of a radical** is its power. -/
theorem isPower_pow {a b : Radical} {e : ℚ} (power : a.pow e = .ok b) : IsPower a.real e b.real := by
  unfold pow at power
  split at power
  · rename_i whole
    exact isPower_intPow whole power
  · cases power

end ExactAlgebra.Radical
