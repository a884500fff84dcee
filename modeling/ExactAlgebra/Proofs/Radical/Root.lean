import ExactAlgebra.Proofs.Error.Run
import ExactAlgebra.Proofs.Radical.Canonical
import ExactAlgebra.Proofs.Rational.SquareRoot

/-!
# Square roots in simplest form

The root of `p/q` is the root of `p·q`, divided by `q`, and `p·q` is a square just if `p/q` is one. So
the roots that are refused are those of the numbers that are no squares and have a product `p·q` above
the limit of the search for square divisors. Any other root is `c·√m` with a square-free `m`, which is
the only form of that number; so multiplying under the root by the square of a number multiplies the
root by its absolute value, and nothing else changes.

The root of a square is rational, and it is taken whatever its size. So the search for an exact root,
which looks at numerator and denominator apart, finds it just if this root, which looks at their
product, has no root left in it.

## Main statements

* `sqrt_cases` — the two ways in which a root can end;
* `splitSquare_fails_iff`, `sqrt_fails_iff`, `sqrt_fails_iff_of_ne`, `sqrt_isOk_iff` — the roots that
  are refused, and those that are not;
* `sqrt_eq_bind` — what is left under the root has no square part any more;
* `sq_coefficient_mul_radicand`, `sqrt_sq_mul` — the value of a root, and the root of a multiple;
* `sqrt_simplest` — the roots that there are, and their form;
* `sqrt_sq`, `sqrt_eq_ofRat_iff` — the roots that are rational;
* `exactRoots_agree` — they are those that are found exactly.

## Main definitions

* `RootTooLarge` — a root that is refused for its size.
-/

namespace ExactAlgebra.Radical

open ExactAlgebra.Rational (factorLimit)

/-! ## Roots that are refused -/

/-- **A number whose root is refused**: it is positive and no square, and numerator and denominator
have a product above the limit. -/
def RootTooLarge (q : ℚ) : Prop :=
  0 < q ∧ ¬ IsSquare q ∧ factorLimit < q.num.natAbs * q.den

/-- Numerator and denominator have a square as their product only if the number is a square. -/
theorem isSquare_iff_mul {q : ℚ} (nonneg : 0 ≤ q) : IsSquare q ↔ IsSquare (q.num.natAbs * q.den) := by
  have denominator : (q.den : ℚ) ≠ 0 := Nat.cast_ne_zero.mpr q.den_nz
  have product : ((q.num.natAbs * q.den : ℕ) : ℚ) = q * (q.den * q.den) := by
    rw [Nat.cast_mul, Nat.cast_natAbs, abs_of_nonneg (Rat.num_nonneg.mpr nonneg), ← Rat.mul_den_eq_num q]
    ring
  rw [← Rat.isSquare_natCast_iff, product]
  constructor
  · rintro ⟨r, rfl⟩
    exact ⟨r * (r * r).den, by ring⟩
  · rintro ⟨r, same⟩
    refine ⟨r / q.den, ?_⟩
    rw [div_mul_div_comm, ← same, mul_div_cancel_right₀ q (mul_ne_zero denominator denominator)]

theorem num_mul_den_pos {q : ℚ} (positive : 0 < q) : 0 < q.num.natAbs * q.den :=
  Nat.mul_pos (Int.natAbs_pos.mpr (Rat.num_pos.mpr positive).ne') q.den_pos

theorem splitSquare_fails_iff {n : Nat} (positive : 0 < n) :
    (∃ fault, splitSquare n = .error fault) ↔ ¬ IsSquare n ∧ factorLimit < n := by
  have square : IsSquare n ↔ n.sqrt * n.sqrt = n := by
    rw [← Nat.exists_mul_self n]
    exact ⟨fun ⟨r, same⟩ => ⟨r, same.symm⟩, fun ⟨r, same⟩ => ⟨r, same.symm⟩⟩
  rw [square]
  unfold splitSquare Rational.checkFactorable
  split
  · rename_i exact
    constructor
    · rintro ⟨_, ⟨⟩⟩
    · rintro ⟨irrational, -⟩
      exact absurd exact.2 irrational
  · rename_i irrational
    have irrational : ¬ n.sqrt * n.sqrt = n := fun exact => irrational ⟨positive.ne', exact⟩
    by_cases large : factorLimit < n
    · simp [large, irrational]
    · simp [large]

/-- **The root of a positive number** is taken just if the square part of the product of numerator and
denominator is found. -/
theorem sqrt_cases {q : ℚ} (positive : 0 < q) :
    (∃ fault, splitSquare (q.num.natAbs * q.den) = .error fault ∧ sqrt q = .error fault) ∨
      ∃ (k m : Nat) (free : SquareFree m), splitSquare (q.num.natAbs * q.den) = .ok (k, m) ∧
        m ≤ factorLimit ∧ sqrt q = .ok (ofParts ((k : ℚ) / (q.den : ℚ)) m free) := by
  have nonzero : ¬ ((1 : ℚ) = 0 ∨ q = 0) := not_or.mpr ⟨one_ne_zero, positive.ne'⟩
  rw [sqrt, make, if_neg (not_lt.mpr positive.le), dif_neg nonzero]
  split
  · rename_i fault found
    exact .inl ⟨fault, found, rfl⟩
  · rename_i k m found
    have product := num_mul_den_pos positive
    exact .inr ⟨k, m, splitSquare_squareFree product found, found, splitSquare_le product found,
      by rw [one_mul]⟩

/-- **The roots of positive numbers that are refused.** -/
theorem sqrt_fails_iff {q : ℚ} (positive : 0 < q) :
    (∃ fault, sqrt q = .error fault) ↔ RootTooLarge q := by
  have split : (∃ fault, sqrt q = .error fault) ↔
      ∃ fault, splitSquare (q.num.natAbs * q.den) = .error fault := by
    rcases sqrt_cases positive with ⟨fault, found, refused⟩ | ⟨k, m, free, found, -, root⟩
    · exact iff_of_true ⟨fault, refused⟩ ⟨fault, found⟩
    · rw [found, root]
      exact iff_of_false (by simp) (by simp)
  rw [split, splitSquare_fails_iff (num_mul_den_pos positive), ← isSquare_iff_mul positive.le,
    RootTooLarge, and_iff_right positive]

theorem sqrt_zero : sqrt 0 = .ok (ofRat 0) := by
  rw [sqrt, make, if_neg (lt_irrefl 0), dif_pos (.inr rfl)]

theorem sqrt_of_neg {q : ℚ} (negative : q < 0) : sqrt q = .error (.negativeRadicand q) := by
  rw [sqrt, make, if_pos negative]

/-- **The roots that are refused**, of negative numbers and of large ones. -/
theorem sqrt_fails_iff_of_ne {q : ℚ} (nonzero : q ≠ 0) :
    (∃ fault, sqrt q = .error fault) ↔ q < 0 ∨ RootTooLarge q := by
  rcases lt_or_gt_of_ne nonzero with negative | positive
  · exact iff_of_true ⟨_, sqrt_of_neg negative⟩ (.inl negative)
  · rw [sqrt_fails_iff positive, or_iff_right (not_lt.mpr positive.le)]

/-- **The roots that there are**: those of squares of any size, and of numbers within the limit. -/
theorem sqrt_isOk_iff {q : ℚ} (nonneg : 0 ≤ q) :
    (∃ a, sqrt q = .ok a) ↔ IsSquare q ∨ q.num.natAbs * q.den ≤ factorLimit := by
  rcases nonneg.eq_or_lt with rfl | positive
  · exact iff_of_true ⟨_, sqrt_zero⟩ (.inl ⟨0, (mul_zero 0).symm⟩)
  · rw [exists_ok_iff, sqrt_fails_iff positive, RootTooLarge, and_iff_right positive, not_and_or,
      not_not, not_lt]

/-! ## The form of a root -/

/-- **A root is taken in two steps**: the square part of the radicand comes out, and a radical is made
from what is left. That is square-free already, so the second step is never refused. -/
theorem sqrt_eq_bind {q : ℚ} (positive : 0 < q) :
    sqrt q = splitSquare (q.num.natAbs * q.den) >>=
      fun parts => make ((parts.1 : ℚ) / (q.den : ℚ)) (parts.2 : ℚ) := by
  rcases sqrt_cases positive with ⟨fault, found, refused⟩ | ⟨k, m, free, found, le, root⟩
  · rw [found, bind_error, refused]
  · rw [found, bind_ok, root, make_natCast _ free le]

/-- A root is not negative. -/
theorem coefficient_nonneg_of_sqrt {q : ℚ} {a : Radical} (root : sqrt q = .ok a) :
    0 ≤ a.coefficient := by
  have value : 0 ≤ a.real := by
    rw [real_sqrt root]
    exact Real.sqrt_nonneg _
  exact_mod_cast nonneg_of_mul_nonneg_left value a.sqrt_radicand_pos

/-- **The square of a root** is the number under it. -/
theorem sq_coefficient_mul_radicand {q : ℚ} {a : Radical} (root : sqrt q = .ok a) :
    a.coefficient ^ 2 * a.radicand = q := by
  have nonneg : (0 : ℝ) ≤ q := by exact_mod_cast nonneg_of_make root
  have square : (a.coefficient : ℝ) ^ 2 * (a.radicand : ℝ) = (q : ℝ) := by
    calc (a.coefficient : ℝ) ^ 2 * (a.radicand : ℝ)
        = a.real ^ 2 := by rw [real, mul_pow, Real.sq_sqrt (Nat.cast_nonneg _)]
      _ = (q : ℝ) := by rw [real_sqrt root, Real.sq_sqrt nonneg]
  exact_mod_cast square

/-- **The root of a multiple** by a square is the same multiple of the root. -/
theorem sqrt_sq_mul {k q : ℚ} {a b : Radical} (root : sqrt q = .ok a)
    (root' : sqrt (k ^ 2 * q) = .ok b) : b = ofParts (|k| * a.coefficient) a.radicand a.squareFree := by
  apply real_injective
  have absolute : √((k : ℝ) ^ 2) = |(k : ℝ)| := Real.sqrt_sq_eq_abs _
  rw [real_sqrt root', real_ofParts, Rat.cast_mul, Rat.cast_pow, Real.sqrt_mul (sq_nonneg _),
    absolute, ← real_sqrt root, Rat.cast_mul, Rat.cast_abs, mul_assoc, real]

/-- **Square roots in simplest form.** The root of a number that is not negative is there just if the
number is a square, or if its numerator and denominator have a product up to the limit. It is `c·√m`
with `c ≥ 0`, `c²·m` the number and `m` square-free, and zero is written with `m = 1`. The root of the
number multiplied by the square of another one has the same radicand, and the coefficient multiplied
by the absolute value. -/
theorem sqrt_simplest (f : ℚ) (nonneg : 0 ≤ f) :
    ((∃ a, sqrt f = .ok a) ↔ IsSquare f ∨ f.num.natAbs * f.den ≤ 10 ^ 12) ∧
    (∀ a, sqrt f = .ok a → 0 ≤ a.coefficient ∧ a.coefficient ^ 2 * a.radicand = f ∧
      0 < a.radicand ∧ Squarefree a.radicand ∧ (f = 0 → a.coefficient = 0 ∧ a.radicand = 1)) ∧
    ∀ k : ℚ, k ≠ 0 → ∀ a b, sqrt f = .ok a → sqrt (k ^ 2 * f) = .ok b →
      b.radicand = a.radicand ∧ b.coefficient = |k| * a.coefficient := by
  refine ⟨sqrt_isOk_iff nonneg, fun a root => ?_, fun k nonzero a b root root' => ?_⟩
  · refine ⟨coefficient_nonneg_of_sqrt root, sq_coefficient_mul_radicand root, a.squareFree.pos,
      squareFree_iff.mp a.squareFree, ?_⟩
    rintro rfl
    obtain rfl := Except.ok.inj (sqrt_zero.symm.trans root)
    exact ⟨rfl, rfl⟩
  · have multiple := sqrt_sq_mul root root'
    have coefficient : b.coefficient = |k| * a.coefficient := by rw [multiple, coefficient_ofParts]
    refine ⟨?_, coefficient⟩
    by_cases zero : a.coefficient = 0
    · rw [a.radicand_of_zero zero, b.radicand_of_zero (by rw [coefficient, zero, mul_zero])]
    · rw [multiple, radicand_ofParts (mul_ne_zero (abs_ne_zero.mpr nonzero) zero)]

/-- The roots of `8/9`, and of its multiple by the square of `-3/2`. -/
theorem sqrt_simplest_multiple : (0 : ℚ) ≤ 8 / 9 ∧ (-3 / 2 : ℚ) ≠ 0 ∧
    ∃ a b, sqrt (8 / 9) = .ok a ∧ sqrt ((-3 / 2) ^ 2 * (8 / 9)) = .ok b ∧
      a.coefficient ^ 2 * a.radicand = 8 / 9 ∧ Squarefree a.radicand ∧
      b.radicand = a.radicand ∧ b.coefficient = 3 / 2 * a.coefficient := by
  have nonneg : (0 : ℚ) ≤ 8 / 9 := by norm_num
  have nonzero : (-3 / 2 : ℚ) ≠ 0 := by norm_num
  obtain ⟨taken, form, multiples⟩ := sqrt_simplest (8 / 9) nonneg
  obtain ⟨a, root⟩ := taken.mpr (.inr (by decide +kernel))
  obtain ⟨b, root'⟩ : ∃ b, sqrt ((-3 / 2) ^ 2 * (8 / 9)) = .ok b :=
    (sqrt_isOk_iff (by norm_num)).mpr (.inr (by decide +kernel))
  obtain ⟨-, value, -, free, -⟩ := form a root
  obtain ⟨radicand, coefficient⟩ := multiples (-3 / 2) nonzero a b root root'
  refine ⟨nonneg, nonzero, a, b, root, root', value, free, radicand, ?_⟩
  rw [coefficient]
  norm_num [abs_of_neg]

/-! ## Rational roots -/

/-- **The root of a square** is rational, whatever its size. -/
theorem sqrt_sq (r : ℚ) : sqrt (r ^ 2) = .ok (ofRat |r|) := by
  obtain ⟨a, root⟩ := (sqrt_isOk_iff (sq_nonneg r)).mpr (.inl ⟨r, pow_two r⟩)
  have value : a.real = (ofRat |r|).real := by
    rw [real_sqrt root, real_ofRat, Rat.cast_pow, Real.sqrt_sq_eq_abs, Rat.cast_abs]
  rw [root, real_injective value]

/-- **The roots that are rational.** -/
theorem sqrt_eq_ofRat_iff {q r : ℚ} : sqrt q = .ok (ofRat r) ↔ 0 ≤ r ∧ r ^ 2 = q := by
  constructor
  · intro root
    refine ⟨coefficient_nonneg_of_sqrt root, ?_⟩
    simpa [ofRat] using sq_coefficient_mul_radicand root
  · rintro ⟨nonneg, rfl⟩
    rw [sqrt_sq, abs_of_nonneg nonneg]

/-- **Exact roots and roots in simplest form agree.** The exact root of a number is the number that is
not negative and has it as its square, and it is missing just if no rational has. It is found just if
the root in simplest form is taken and is rational, and then it is the coefficient. -/
theorem exactRoots_agree (q : ℚ) :
    (∀ r, Rational.sqrt? q = some r ↔ 0 ≤ r ∧ r ^ 2 = q) ∧
    (Rational.sqrt? q = none ↔ ¬ ∃ r : ℚ, r ^ 2 = q) ∧
    ∀ r, Rational.sqrt? q = some r ↔ ∃ a, sqrt q = .ok a ∧ a.radicand = 1 ∧ a.coefficient = r := by
  have found : ∀ r, Rational.sqrt? q = some r ↔ 0 ≤ r ∧ r ^ 2 = q := by
    intro r
    rw [Rational.sqrt?_eq_some_iff, pow_two]
  refine ⟨found, ?_, fun r => ?_⟩
  · rw [Rational.sqrt?_eq_none_iff, isSquare_iff_exists_sq]
    simp only [eq_comm]
  · rw [found, ← sqrt_eq_ofRat_iff]
    constructor
    · intro root
      exact ⟨_, root, rfl, rfl⟩
    · rintro ⟨a, root, rational, rfl⟩
      rw [root, ← eq_ofRat (decide_eq_true rational)]

end ExactAlgebra.Radical
