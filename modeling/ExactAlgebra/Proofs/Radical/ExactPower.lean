import ExactAlgebra.Proofs.Radical.IntegerRoot
import ExactAlgebra.Proofs.Radical.Root

/-!
# Which rational powers are exact

The power `a ^ (p/q)` is looked for as a root of `a ^ p`, in a way that depends on the degree `q`. A
power with a whole exponent is always there, unless zero is divided by; a square root can only be
refused for its sign and its size; and a root of a higher degree is there just if it is rational. In
lowest terms, numerator and denominator of a power are the powers of numerator and denominator, so
such a root is rational just if both of them have exact roots, and the sign allows for it.

## Main statements

* `exists_root_iff` — the rationals that have a rational root;
* `rationalPower_of_whole`, `rationalPower_of_two`, `exists_rationalPower_iff` — the powers by their
  degree;
* `rationalPower_exact` — what the power is, and when there is one.
-/

namespace ExactAlgebra.Radical

variable {b e : ℚ}

/-! ## Rational roots -/

/-- **The rationals with a rational root**: the absolute value of the numerator and the denominator
have exact roots, and the number is not negative if the degree is even. -/
theorem exists_root_iff {q : ℚ} {degree : Nat} (proper : degree ≠ 0) :
    (∃ r : ℚ, r ^ degree = q) ↔ ¬ (q < 0 ∧ degree % 2 = 0) ∧
      (∃ n, integerRoot? q.num.natAbs degree = some n) ∧ ∃ d, integerRoot? q.den degree = some d := by
  constructor
  · rintro ⟨r, rfl⟩
    refine ⟨?_, ⟨r.num.natAbs, ?_⟩, r.den, ?_⟩
    · rintro ⟨negative, even⟩
      exact absurd ((Nat.even_iff.mpr even).pow_nonneg r) (not_le.mpr negative)
    · rw [integerRoot?_eq_some_iff proper, Rat.num_pow, Int.natAbs_pow]
    · rw [integerRoot?_eq_some_iff proper, Rat.den_pow]
  · rintro ⟨real, ⟨n, numerator⟩, d, denominator⟩
    have magnitude := pow_div_eq_abs (pow_of_integerRoot? proper numerator)
      (pow_of_integerRoot? proper denominator)
    by_cases negative : q < 0
    · have odd : Odd degree := by
        rw [← Nat.not_even_iff_odd, Nat.even_iff]
        exact fun even => real ⟨negative, even⟩
      exact ⟨-((n : ℚ) / d), by rw [odd.neg_pow, magnitude, abs_of_neg negative, neg_neg]⟩
    · exact ⟨(n : ℚ) / d, by rw [magnitude, abs_of_nonneg (not_lt.mp negative)]⟩

/-! ## Powers by their degree -/

theorem rationalPower_of_zero (e : ℚ) :
    rationalPower 0 e = if e ≤ 0 then .error .nonPositivePowerOfZero else .ok (ofRat 0) := by
  rw [rationalPower, if_pos rfl]

/-- A power with a whole exponent. -/
theorem rationalPower_of_whole (nonzero : b ≠ 0) (whole : e.den = 1) :
    rationalPower b e = .ok (ofRat (b ^ e.num)) := by
  rw [rationalPower, if_neg nonzero]
  simp only [intPower_eq, whole, if_true]

/-- A power with a half of a whole exponent. -/
theorem rationalPower_of_two (nonzero : b ≠ 0) (two : e.den = 2) :
    rationalPower b e = sqrt (b ^ e.num) := by
  rw [rationalPower, if_neg nonzero]
  simp only [intPower_eq, two, if_neg (show (2 : ℕ) ≠ 1 by decide), if_true]

/-- **A power of a higher degree** is there just if it is rational. -/
theorem exists_rationalPower_iff (nonzero : b ≠ 0) (higher : 3 ≤ e.den) :
    (∃ a, rationalPower b e = .ok a) ↔ ∃ r : ℚ, r ^ e.den = b ^ e.num := by
  rw [exists_root_iff e.den_nz, rationalPower, if_neg nonzero]
  simp only [intPower_eq]
  rw [if_neg (by omega), if_neg (by omega)]
  split
  · rename_i imaginary
    exact iff_of_false (by simp) fun roots => roots.1 imaginary
  · rename_i real
    split
    · rename_i n d numerator denominator
      exact iff_of_true ⟨_, rfl⟩ ⟨real, ⟨n, numerator⟩, d, denominator⟩
    · rename_i missing
      refine iff_of_false (by simp) ?_
      rintro ⟨-, ⟨n, numerator⟩, d, denominator⟩
      exact missing n d numerator denominator

/-- A power with a whole exponent is refused only where zero is divided by. -/
theorem rationalPower_fails_iff_of_whole (whole : e.den = 1) :
    (∃ fault, rationalPower b e = .error fault) ↔ b = 0 ∧ e.num ≤ 0 := by
  by_cases zero : b = 0
  · subst zero
    rw [rationalPower_of_zero, and_iff_right rfl, Rat.num_nonpos]
    split
    · rename_i nonpositive
      exact iff_of_true ⟨_, rfl⟩ nonpositive
    · rename_i positive
      exact iff_of_false (by simp) positive
  · rw [rationalPower_of_whole zero whole]
    exact iff_of_false (by simp) fun both => zero both.1

/-- **Rational powers are exact.** Whatever the power `b ^ (p/q)` is answered to be is a real number
whose power `q` is `b ^ p`, and it is not negative if `q` is even. With `q = 1` there is no power just
if `b` is zero and `p` is not positive. With `q = 2` and `b` other than zero there is none just if
`b ^ p` is negative, or is no square and has a numerator and a denominator with a product above the
limit. With a larger `q` and `b` other than zero there is one just if `b ^ p` is the power `q` of a
rational. The search for an integer root comes to its answer in a bounded number of rounds. -/
theorem rationalPower_exact (b e : ℚ) :
    (∀ a, rationalPower b e = .ok a →
      a.real ^ e.den = (b : ℝ) ^ e.num ∧ (Even e.den → 0 ≤ a.real)) ∧
    (e.den = 1 → ((∃ fault, rationalPower b e = .error fault) ↔ b = 0 ∧ e.num ≤ 0)) ∧
    (e.den = 2 → b ≠ 0 → ((∃ fault, rationalPower b e = .error fault) ↔
      b ^ e.num < 0 ∨
        ¬ IsSquare (b ^ e.num) ∧ 10 ^ 12 < (b ^ e.num).num.natAbs * (b ^ e.num).den)) ∧
    (3 ≤ e.den → b ≠ 0 →
      ((∃ a, rationalPower b e = .ok a) ↔ ∃ r : ℚ, r ^ e.den = b ^ e.num)) ∧
    ∀ n degree : ℕ, degree ≠ 0 →
      (n < 2 → integerRoot? n degree = some n) ∧
      (2 ≤ n → ∃ rounds ≤ (n.log2 + 1) / degree + 2,
        Bisects n degree 1 (2 ^ ((n.log2 + 1) / degree + 1)) rounds (integerRoot? n degree)) := by
  refine ⟨fun a power => ?_, fun whole => rationalPower_fails_iff_of_whole whole,
    fun two nonzero => ?_, fun higher nonzero => exists_rationalPower_iff nonzero higher,
    fun n degree proper => ⟨fun small => if_pos small, fun large => bisects_integerRoot? proper large⟩⟩
  · have exact := isPower_rationalPower power
    exact ⟨exact.root, exact.nonneg⟩
  · have power : b ^ e.num ≠ 0 := zpow_ne_zero _ nonzero
    rw [rationalPower_of_two nonzero two, sqrt_fails_iff_of_ne power, RootTooLarge]
    -- a power that is not negative is positive
    refine or_congr_right' fun nonneg => ?_
    exact and_iff_right (lt_of_le_of_ne (not_lt.mp nonneg) power.symm)

/-- The cube root of a square of a negative number. -/
theorem rationalPower_exact_cube :
    ∃ a, rationalPower (-8) (2 / 3) = .ok a ∧ a.real ^ 3 = 64 := by
  have lowest : (2 / 3 : ℚ).num = 2 ∧ (2 / 3 : ℚ).den = 3 := by decide +kernel
  obtain ⟨value, -, -, higher, -⟩ := rationalPower_exact (-8) (2 / 3)
  rw [lowest.1, lowest.2] at value higher
  obtain ⟨a, power⟩ := (higher le_rfl (by norm_num)).mpr ⟨4, by norm_num⟩
  refine ⟨a, power, ?_⟩
  rw [(value a power).1]
  norm_num

end ExactAlgebra.Radical
