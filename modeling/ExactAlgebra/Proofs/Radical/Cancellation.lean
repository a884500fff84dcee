import ExactAlgebra.Proofs.Radical.Root
import Mathlib.Tactic.NormNum.Prime

/-!
# Products and quotients undo each other

The product of `c√m` and `d√n` has the radicand `m·n` without the square of what `m` and `n` have in
common, and so has their quotient. Going back by `d√n`, the radicand `m·n'²` is met, where `n'` is `n`
without that common part. It is a square only if `m` is one, and then the way back is open whatever
its size. Any other radicand is searched for squares, and that has a limit: what is met on the way
back can be above it, although the way there was not refused and the result would be small.

## Main statements

* `make_whole` — which radicals are made from whole radicands;
* `radicand_eq_of_product` — the radicand of products and quotients;
* `isSquare_returnRadicand_iff` — when the way back meets a square;
* `mul_div_return` — what division answers to a product, and multiplication to a quotient;
* `mul_div_refused` — a way back that is refused.

## Main definitions

* `productRadicand` — the radicand of a product in simplest form;
* `returnRadicand` — the radicand that is met on the way back;
* `returned` — what is answered there.
-/

namespace ExactAlgebra.Radical

open ExactAlgebra.Rational (factorLimit)

variable {a b c : Radical}

/-! ## Whole radicands -/

/-- A number whose square part is not found is refused for its size. -/
theorem splitSquare_fault {n : Nat} {fault : Error} (refused : splitSquare n = .error fault) :
    fault = .tooLargeToFactor n := by
  unfold splitSquare Rational.checkFactorable at refused
  split at refused
  · cases refused
  · by_cases large : factorLimit < n
    · rw [if_pos large] at refused
      cases refused
      rfl
    · rw [if_neg large] at refused
      cases refused

/-- **The radicals with whole radicands.** A radicand that is no square has to be within the limit. -/
theorem make_whole {q : ℚ} (nonzero : q ≠ 0) {n : Nat} (positive : 0 < n) :
    (IsSquare n ∨ n ≤ factorLimit → ∃ a, make q n = .ok a) ∧
      (¬ (IsSquare n ∨ n ≤ factorLimit) → make q n = .error (.tooLargeToFactor n)) := by
  have nonneg : ¬ (n : ℚ) < 0 := not_lt.mpr (Nat.cast_nonneg n)
  have some : ¬ (q = 0 ∨ (n : ℚ) = 0) := not_or.mpr ⟨nonzero, Nat.cast_ne_zero.mpr positive.ne'⟩
  have whole : (n : ℚ).num.natAbs * (n : ℚ).den = n := by
    rw [Rat.num_natCast, Int.natAbs_natCast, Rat.den_natCast, Nat.mul_one]
  have refused := splitSquare_fails_iff positive
  unfold make
  rw [if_neg nonneg, dif_neg some]
  constructor
  · intro small
    split
    · rename_i fault found
      rw [whole] at found
      obtain ⟨irrational, large⟩ := refused.mp ⟨fault, found⟩
      exact absurd small (not_or.mpr ⟨irrational, Nat.not_le.mpr large⟩)
    · exact ⟨_, rfl⟩
  · intro large
    obtain ⟨irrational, large⟩ := not_or.mp large
    split
    · rename_i fault found
      rw [whole] at found
      rw [splitSquare_fault found]
    · rename_i k m found
      rw [whole] at found
      obtain ⟨fault, none⟩ := refused.mpr ⟨irrational, Nat.not_le.mp large⟩
      rw [found] at none
      cases none

/-! ## The radicand of a product -/

/-- The radicand of a product of two radicals, in simplest form: what they have in common is left
out. -/
def productRadicand (a b : Radical) : Nat :=
  a.radicand / a.radicand.gcd b.radicand * (b.radicand / a.radicand.gcd b.radicand)

theorem gcd_radicands_pos (a b : Radical) : 0 < a.radicand.gcd b.radicand :=
  Nat.gcd_pos_of_pos_left _ a.squareFree.pos

theorem squareFree_productRadicand (a b : Radical) : SquareFree (a.productRadicand b) := by
  have left := squareFree_iff.mp a.squareFree
  have right := squareFree_iff.mp b.squareFree
  rw [squareFree_iff, productRadicand,
    Nat.squarefree_mul (Nat.coprime_div_gcd_div_gcd (gcd_radicands_pos a b))]
  exact ⟨left.squarefree_of_dvd (Nat.div_dvd_of_dvd (Nat.gcd_dvd_left _ _)),
    right.squarefree_of_dvd (Nat.div_dvd_of_dvd (Nat.gcd_dvd_right _ _))⟩

/-- The roots of two radicands have the root of the simplest radicand as their product, times what
they have in common. -/
theorem sqrt_productRadicand (a b : Radical) :
    √(a.radicand : ℝ) * √(b.radicand : ℝ) =
      (a.radicand.gcd b.radicand : ℝ) * √(a.productRadicand b : ℝ) := by
  have common : (a.radicand.gcd b.radicand : ℝ) = √((a.radicand.gcd b.radicand : ℝ) ^ 2) :=
    (Real.sqrt_sq (Nat.cast_nonneg _)).symm
  have product : a.radicand * b.radicand = a.radicand.gcd b.radicand ^ 2 * a.productRadicand b := by
    calc a.radicand * b.radicand
        = a.radicand.gcd b.radicand * (a.radicand / a.radicand.gcd b.radicand) *
            (a.radicand.gcd b.radicand * (b.radicand / a.radicand.gcd b.radicand)) := by
          rw [Nat.mul_div_cancel' (Nat.gcd_dvd_left _ _), Nat.mul_div_cancel' (Nat.gcd_dvd_right _ _)]
      _ = a.radicand.gcd b.radicand ^ 2 * a.productRadicand b := by
          rw [productRadicand]
          ring
  rw [common, ← Real.sqrt_mul (Nat.cast_nonneg _), ← Real.sqrt_mul (sq_nonneg _)]
  congr 1
  exact_mod_cast product

/-- **The radicand of a product**, or of any rational multiple of it. -/
theorem radicand_eq_of_product {q : ℚ} (product : c.real = q * (a.real * b.real))
    (nonzero : c.real ≠ 0) : c.radicand = a.productRadicand b := by
  -- the multiple in simplest form is the same number, so it has the same radicand
  have simplest : c.real = (ofParts (q * (a.coefficient * b.coefficient * a.radicand.gcd b.radicand))
      (a.productRadicand b) (squareFree_productRadicand a b)).real := by
    rw [product, real_ofParts, real, real]
    push_cast
    linear_combination (q * a.coefficient * b.coefficient : ℝ) * sqrt_productRadicand a b
  rw [radicand_eq_of_real_eq simplest nonzero]
  refine radicand_ofParts ?_ _ _
  intro zero
  rw [simplest, real_ofParts, zero, Rat.cast_zero, zero_mul] at nonzero
  exact nonzero rfl

/-! ## The way back -/

/-- **The radicand that is met on the way back** from a product or a quotient. -/
def returnRadicand (a b : Radical) : Nat :=
  a.radicand * (b.radicand / a.radicand.gcd b.radicand) ^ 2

theorem productRadicand_mul (a b : Radical) :
    a.productRadicand b * b.radicand = a.returnRadicand b := by
  have right := Nat.mul_div_cancel' (Nat.gcd_dvd_right a.radicand b.radicand)
  have left := Nat.mul_div_cancel' (Nat.gcd_dvd_left a.radicand b.radicand)
  calc a.productRadicand b * b.radicand
      = a.productRadicand b *
          (a.radicand.gcd b.radicand * (b.radicand / a.radicand.gcd b.radicand)) := by rw [right]
    _ = a.radicand.gcd b.radicand * (a.radicand / a.radicand.gcd b.radicand) *
          (b.radicand / a.radicand.gcd b.radicand) ^ 2 := by
        rw [productRadicand]
        ring
    _ = a.returnRadicand b := by rw [left, returnRadicand]

/-- **The way back meets a square** only if it leads to a rational number. -/
theorem isSquare_returnRadicand_iff (a b : Radical) :
    IsSquare (a.returnRadicand b) ↔ a.radicand = 1 := by
  have part : b.radicand / a.radicand.gcd b.radicand ≠ 0 :=
    (Nat.div_pos (Nat.le_of_dvd b.squareFree.pos (Nat.gcd_dvd_right _ _)) (gcd_radicands_pos a b)).ne'
  constructor
  · intro square
    have radicand : IsSquare (a.radicand * 1) := by
      obtain ⟨s, same⟩ := square
      have divides : (b.radicand / a.radicand.gcd b.radicand) ^ 2 ∣ s ^ 2 := by
        rw [pow_two s, ← same, returnRadicand]
        exact Nat.dvd_mul_left _ _
      obtain ⟨t, rfl⟩ := (Nat.pow_dvd_pow_iff two_ne_zero).mp divides
      refine ⟨t, Nat.eq_of_mul_eq_mul_right (pow_pos (Nat.pos_of_ne_zero part) 2) ?_⟩
      rw [returnRadicand] at same
      rw [mul_one, same]
      ring
    exact a.squareFree.eq_of_isSquare_mul squareFree_one radicand
  · intro rational
    rw [returnRadicand, rational, one_mul]
    exact ⟨_, pow_two _⟩

/-- **What the way back answers**: the radical that the way began with, unless the radicand that is
met is no square and above the limit. -/
def returned (a b : Radical) : Except Error Radical :=
  if a.radicand = 1 ∨ a.returnRadicand b ≤ factorLimit then .ok a
  else .error (.tooLargeToFactor (a.returnRadicand b))

/-- A radical that is made from the radicand of the way back, and can be no other than the first one. -/
theorem make_returnRadicand {q : ℚ} (nonzero : q ≠ 0)
    (same : ∀ d, make q (a.returnRadicand b) = .ok d → d.real = a.real) :
    make q (a.returnRadicand b) = a.returned b := by
  have positive : 0 < a.returnRadicand b := by
    rw [← productRadicand_mul]
    exact Nat.mul_pos (squareFree_productRadicand a b).pos b.squareFree.pos
  obtain ⟨made, refused⟩ := make_whole nonzero positive
  rw [isSquare_returnRadicand_iff] at made refused
  unfold returned
  split
  · rename_i small
    obtain ⟨d, done⟩ := made small
    rw [done, real_injective (same d done)]
  · rename_i large
    exact refused large

theorem coefficient_eq_zero_iff (a : Radical) : a.coefficient = 0 ↔ a.real = 0 := by
  rw [← a.isZero_iff, isZero, decide_eq_true_eq]

/-- From zero the way back leads to zero. -/
theorem returned_of_zero (zero : a.real = 0) (b : Radical) : a.returned b = .ok (ofRat 0) := by
  have same : a = ofRat 0 := by
    apply real_injective
    rw [zero, real_ofRat, Rat.cast_zero]
  rw [returned, if_pos (.inl (by rw [same]; rfl)), same]

theorem make_zero (r : ℚ) (nonneg : 0 ≤ r) : make 0 r = .ok (ofRat 0) := by
  rw [make, if_neg (not_lt.mpr nonneg), dif_pos (.inl rfl)]

/-- **Division undoes multiplication**, as far as it is not refused. -/
theorem div_of_mul (nonzero : b.coefficient ≠ 0) (product : a.mul b = .ok c) :
    c.div b = a.returned b := by
  have divisor := b.coefficient_eq_zero_iff.not.mp nonzero
  have value := real_mul product
  have back : ∀ d, c.div b = .ok d → d.real = a.real := by
    intro d quotient
    rw [(real_div quotient).2, value, mul_div_cancel_right₀ _ divisor]
  have isSome : ¬ b.isZero = true := by
    rw [isZero, decide_eq_true_eq]
    exact nonzero
  rw [div, if_neg isSome] at back ⊢
  by_cases zero : a.real = 0
  · have none : c.coefficient = 0 := by rw [coefficient_eq_zero_iff, value, zero, zero_mul]
    rw [none, zero_div, returned_of_zero zero]
    exact make_zero _ (mul_nonneg (Nat.cast_nonneg _) (Nat.cast_nonneg _))
  · have some : c.real ≠ 0 := by
      rw [value]
      exact mul_ne_zero zero divisor
    have radicand : c.radicand = a.productRadicand b :=
      radicand_eq_of_product (q := 1) (by rw [value, Rat.cast_one, one_mul]) some
    rw [radicand, ← Nat.cast_mul, productRadicand_mul] at back ⊢
    refine make_returnRadicand (div_ne_zero (c.coefficient_eq_zero_iff.not.mpr some) ?_) back
    exact mul_ne_zero nonzero (Nat.cast_ne_zero.mpr b.squareFree.pos.ne')

/-- **Multiplication undoes division**, as far as it is not refused. -/
theorem mul_of_div (quotient : a.div b = .ok c) : c.mul b = a.returned b := by
  obtain ⟨divisor, value⟩ := real_div quotient
  have nonzero := b.coefficient_eq_zero_iff.not.mpr divisor
  have back : ∀ d, c.mul b = .ok d → d.real = a.real := by
    intro d product
    rw [real_mul product, value, div_mul_cancel₀ _ divisor]
  rw [mul] at back ⊢
  by_cases zero : a.real = 0
  · have none : c.coefficient = 0 := by rw [coefficient_eq_zero_iff, value, zero, zero_div]
    rw [none, zero_mul, returned_of_zero zero]
    exact make_zero _ (mul_nonneg (Nat.cast_nonneg _) (Nat.cast_nonneg _))
  · have some : c.real ≠ 0 := by
      rw [value]
      exact div_ne_zero zero divisor
    -- the quotient is a rational multiple of the product
    have multiple : c.real = ((1 / (b.coefficient ^ 2 * b.radicand) : ℚ) : ℝ) * (a.real * b.real) := by
      have square : b.real ^ 2 = ((b.coefficient ^ 2 * b.radicand : ℚ) : ℝ) := by
        rw [real, mul_pow, Real.sq_sqrt (Nat.cast_nonneg _)]
        push_cast
        rfl
      rw [value, Rat.cast_div, ← square, Rat.cast_one]
      field_simp
    have radicand := radicand_eq_of_product multiple some
    rw [radicand, ← Nat.cast_mul, productRadicand_mul] at back ⊢
    exact make_returnRadicand (mul_ne_zero (c.coefficient_eq_zero_iff.not.mpr some) nonzero) back

/-- The roots of two numbers whose product is within the limit can be multiplied and divided. -/
theorem mul_div_roots {m n : Nat} (left : SquareFree m) (right : SquareFree n)
    (small : m * n ≤ factorLimit) :
    ∃ c d, (ofParts 1 m left).mul (ofParts 1 n right) = .ok c ∧
      (ofParts 1 m left).div (ofParts 1 n right) = .ok d := by
  have positive := Nat.mul_pos left.pos right.pos
  have whole : (n : ℚ) ≠ 0 := Nat.cast_ne_zero.mpr right.pos.ne'
  obtain ⟨c, product⟩ := (make_whole one_ne_zero positive).1 (.inr small)
  obtain ⟨d, quotient⟩ := (make_whole (one_div_ne_zero whole) positive).1 (.inr small)
  have isSome : ¬ (ofParts 1 n right).isZero = true := by
    rw [isZero, decide_eq_true_eq, coefficient_ofParts]
    exact one_ne_zero
  refine ⟨c, d, ?_, ?_⟩
  · rw [mul, coefficient_ofParts, coefficient_ofParts, radicand_ofParts one_ne_zero,
      radicand_ofParts one_ne_zero, one_mul, ← Nat.cast_mul]
    exact product
  · rw [div, if_neg isSome, coefficient_ofParts, coefficient_ofParts, radicand_ofParts one_ne_zero,
      radicand_ofParts one_ne_zero, one_mul, ← Nat.cast_mul]
    exact quotient

/-- **Division and multiplication by a radical undo each other**, unless the radicand that is met on
the way back is refused. It is refused if it is above the limit and the first radical is irrational. -/
theorem mul_div_return (a b : Radical) (nonzero : b.coefficient ≠ 0) :
    (∀ c, a.mul b = .ok c → c.div b =
      if a.radicand = 1 ∨ a.returnRadicand b ≤ factorLimit then .ok a
      else .error (.tooLargeToFactor (a.returnRadicand b))) ∧
    (∀ c, a.div b = .ok c → c.mul b =
      if a.radicand = 1 ∨ a.returnRadicand b ≤ factorLimit then .ok a
      else .error (.tooLargeToFactor (a.returnRadicand b))) :=
  ⟨fun _ product => div_of_mul nonzero product, fun _ quotient => mul_of_div quotient⟩

/-- The way from `√6` by `√10`, which have a factor in common, and back. -/
theorem mul_div_return_six : ∃ a b c d : Radical, sqrt 6 = .ok a ∧ sqrt 10 = .ok b ∧
    b.coefficient ≠ 0 ∧ a.mul b = .ok c ∧ c.div b = .ok a ∧ a.div b = .ok d ∧ d.mul b = .ok a := by
  have six : SquareFree 6 := squareFree_iff.mpr (by decide +kernel)
  have ten : SquareFree 10 := squareFree_iff.mpr (by decide +kernel)
  have nonzero : (ofParts 1 10 ten).coefficient ≠ 0 := by
    rw [coefficient_ofParts]
    exact one_ne_zero
  have small : (ofParts 1 6 six).returnRadicand (ofParts 1 10 ten) ≤ factorLimit := by
    rw [returnRadicand, radicand_ofParts one_ne_zero, radicand_ofParts one_ne_zero]
    decide +kernel
  obtain ⟨c, d, product, quotient⟩ := mul_div_roots six ten (by decide)
  obtain ⟨back, back'⟩ := mul_div_return (ofParts 1 6 six) (ofParts 1 10 ten) nonzero
  refine ⟨_, _, c, d, make_natCast 1 six (by decide), make_natCast 1 ten (by decide), nonzero,
    product, ?_, quotient, ?_⟩
  · rw [back c product, if_pos (.inr small)]
  · rw [back' d quotient, if_pos (.inr small)]

/-- **A way back can be refused.** From `√2` by `√1000003` and back the radicand `2·1000003²` is met,
which is no square and too large to be searched for squares. -/
theorem mul_div_refused : ∃ a b c d : Radical, sqrt 2 = .ok a ∧ sqrt 1000003 = .ok b ∧
    b.coefficient ≠ 0 ∧ a.mul b = .ok c ∧ c.div b = .error (.tooLargeToFactor (2 * 1000003 ^ 2)) ∧
    a.div b = .ok d ∧ d.mul b = .error (.tooLargeToFactor (2 * 1000003 ^ 2)) := by
  have two : SquareFree 2 := squareFree_iff.mpr Nat.prime_two.squarefree
  have prime : SquareFree 1000003 :=
    squareFree_iff.mpr (show Nat.Prime 1000003 by norm_num).squarefree
  have nonzero : (ofParts 1 1000003 prime).coefficient ≠ 0 := by
    rw [coefficient_ofParts]
    exact one_ne_zero
  obtain ⟨c, d, product, quotient⟩ := mul_div_roots two prime (by decide)
  have refused : (ofParts 1 2 two).returned (ofParts 1 1000003 prime) =
      .error (.tooLargeToFactor (2 * 1000003 ^ 2)) := by
    have met : (ofParts 1 2 two).returnRadicand (ofParts 1 1000003 prime) = 2 * 1000003 ^ 2 := by
      rw [returnRadicand, radicand_ofParts one_ne_zero, radicand_ofParts one_ne_zero]
      decide +kernel
    rw [returned, met, radicand_ofParts one_ne_zero, if_neg (by decide)]
  refine ⟨_, _, c, d, ?_, ?_, nonzero, product, ?_, quotient, ?_⟩
  · exact make_natCast 1 two (by decide)
  · exact make_natCast 1 prime (by decide)
  · rw [div_of_mul nonzero product, refused]
  · rw [mul_of_div quotient, refused]

end ExactAlgebra.Radical
