import ExactAlgebra.Proofs.Radical.Arithmetic
import ExactAlgebra.Proofs.Radical.Simplest
import Mathlib.Data.Nat.Squarefree

/-!
# The form of a radical is unique

Two radicals that denote the same real number are the same. Their squares show it: `c²·m = d²·n` makes
`m·n` a perfect square, and two square-free numbers whose product is a square are equal.

The radicals that the library can come by are those that a constructor, a root or a power has given,
and what the operations make of them. All of them have a radicand that can be searched for squares, so
none of them is refused when it is put together again.

## Main statements

* `squareFree_iff` — square-free numbers are those of number theory;
* `eq_iff_real_eq` — equal radicals are equal numbers;
* `canonical_exact` — the form of the radicals that can be built, and what the operations on them do.

## Main definitions

* `IsBuilt` — the radicals that constructor, roots, powers and operations give.
-/

namespace ExactAlgebra.Radical

open ExactAlgebra.Rational (factorLimit)

/-! ## Square-free numbers -/

/-- **Square-free** means the same as in number theory. -/
theorem squareFree_iff {n : Nat} : SquareFree n ↔ Squarefree n := by
  unfold SquareFree Squarefree
  simp only [Nat.isUnit_iff]

/-- A square-free number whose product with another number is a square divides it. -/
theorem exists_eq_mul_sq {m n : Nat} (free : SquareFree m) (square : IsSquare (m * n)) :
    ∃ j, n = m * (j * j) := by
  obtain ⟨k, product⟩ := square
  have divides : m ∣ k ^ 2 := Dvd.intro n (by rw [product, pow_two])
  obtain ⟨j, rfl⟩ := ((squareFree_iff.mp free).dvd_pow_iff_dvd two_ne_zero).mp divides
  refine ⟨j, Nat.eq_of_mul_eq_mul_left free.pos ?_⟩
  rw [product]
  ring

/-- **Two square-free numbers with a square for a product** are equal. -/
theorem SquareFree.eq_of_isSquare_mul {m n : Nat} (hm : SquareFree m) (hn : SquareFree n)
    (square : IsSquare (m * n)) : m = n := by
  obtain ⟨j, rfl⟩ := exists_eq_mul_sq hm square
  have one : j = 1 := hn j (Dvd.intro_left m rfl)
  rw [one, mul_one, mul_one]

/-! ## Equal numbers -/

/-- The radicands of two radicals that denote the same number, which is not zero. -/
theorem radicand_eq_of_real_eq {a b : Radical} (same : a.real = b.real) (nonzero : a.real ≠ 0) :
    a.radicand = b.radicand := by
  have nonzero' : b.real ≠ 0 := same ▸ nonzero
  have left : a.coefficient ≠ 0 := Rat.cast_ne_zero.mp (left_ne_zero_of_mul nonzero)
  have right : b.coefficient ≠ 0 := Rat.cast_ne_zero.mp (left_ne_zero_of_mul nonzero')
  -- the squares of the numbers are rational
  have squares : (a.coefficient : ℝ) ^ 2 * a.radicand = (b.coefficient : ℝ) ^ 2 * b.radicand := by
    have equal : a.real ^ 2 = b.real ^ 2 := congrArg (· ^ 2) same
    unfold real at equal
    rwa [mul_pow, mul_pow, Real.sq_sqrt (Nat.cast_nonneg _), Real.sq_sqrt (Nat.cast_nonneg _)] at equal
  have rational : a.coefficient ^ 2 * (a.radicand : ℚ) = b.coefficient ^ 2 * (b.radicand : ℚ) := by
    exact_mod_cast squares
  have square : IsSquare ((a.radicand * b.radicand : ℕ) : ℚ) := by
    refine ⟨b.coefficient * b.radicand / a.coefficient, ?_⟩
    push_cast
    field_simp
    linear_combination (b.radicand : ℚ) * rational
  exact a.squareFree.eq_of_isSquare_mul b.squareFree (Rat.isSquare_natCast_iff.mp square)

theorem real_injective : Function.Injective real := by
  intro a b same
  have radicands : a.radicand = b.radicand := by
    by_cases zero : a.real = 0
    · have noneLeft : a.coefficient = 0 := by simpa [isZero] using a.isZero_iff.mpr zero
      have noneRight : b.coefficient = 0 := by simpa [isZero] using b.isZero_iff.mpr (same ▸ zero)
      rw [a.radicand_of_zero noneLeft, b.radicand_of_zero noneRight]
    · exact radicand_eq_of_real_eq same zero
  have coefficients : a.coefficient = b.coefficient := by
    unfold real at same
    rw [radicands] at same
    exact Rat.cast_injective (mul_right_cancel₀ b.sqrt_radicand_pos.ne' same)
  obtain ⟨c, m, free, zero⟩ := a
  obtain ⟨d, n, free', zero'⟩ := b
  obtain rfl : c = d := coefficients
  obtain rfl : m = n := radicands
  rfl

/-- **Equal radicals are equal numbers**, and the other way round. -/
theorem eq_iff_real_eq {a b : Radical} : a = b ↔ a.real = b.real :=
  real_injective.eq_iff.symm

/-! ## The radicals that can be built -/

/-- **The radicals that can be built** by the constructor, as roots and rational powers, and from other
ones by the operations. -/
inductive IsBuilt : Radical → Prop where
  | make {c r : ℚ} {a : Radical} : make c r = .ok a → IsBuilt a
  | sqrt {q : ℚ} {a : Radical} : sqrt q = .ok a → IsBuilt a
  | rationalPower {q e : ℚ} {a : Radical} : rationalPower q e = .ok a → IsBuilt a
  | neg {a : Radical} : IsBuilt a → IsBuilt a.neg
  | abs {a : Radical} : IsBuilt a → IsBuilt a.abs
  | add {a b c : Radical} : IsBuilt a → IsBuilt b → a.add b = .ok c → IsBuilt c
  | sub {a b c : Radical} : IsBuilt a → IsBuilt b → a.sub b = .ok c → IsBuilt c
  | mul {a b c : Radical} : IsBuilt a → IsBuilt b → a.mul b = .ok c → IsBuilt c
  | div {a b c : Radical} : IsBuilt a → IsBuilt b → a.div b = .ok c → IsBuilt c
  | intPow {a b : Radical} {n : Int} : IsBuilt a → a.intPow n = .ok b → IsBuilt b

namespace IsMade

variable {a b c : Radical}

theorem ofParts {m : Nat} (le : m ≤ factorLimit) (c : ℚ) (free : SquareFree m) :
    (ofParts c m free).IsMade := by
  rw [isMade_iff, Radical.ofParts]
  split
  · show 1 ≤ factorLimit
    decide
  · exact le

theorem ofRat (q : ℚ) : (ofRat q).IsMade :=
  ⟨q, 1, make_one q⟩

theorem rationalPower {q e : ℚ} (power : rationalPower q e = .ok a) : a.IsMade := by
  unfold Radical.rationalPower at power
  split at power
  · split at power
    · cases power
    · cases power
      exact ofRat 0
  · dsimp only at power
    split at power
    · cases power
      exact ofRat _
    · split at power
      · exact ⟨1, _, power⟩
      · split at power
        · cases power
        · split at power
          · cases power
            exact ofRat _
          · cases power

theorem add (ha : a.IsMade) (hb : b.IsMade) (sum : a.add b = .ok c) : c.IsMade := by
  unfold Radical.add at sum
  split at sum
  · cases sum
    exact ha
  · split at sum
    · cases sum
      exact hb
    · split at sum
      · cases sum
        exact ofParts ((a.isMade_iff).mp ha) _ _
      · cases sum

theorem natPow (ha : a.IsMade) (n : Nat) : (a.natPow n).IsMade := by
  unfold Radical.natPow
  dsimp only
  split
  · exact ofParts ((a.isMade_iff).mp ha) _ _
  · exact ofRat _

theorem intPow {n : Int} (ha : a.IsMade) (power : a.intPow n = .ok b) : b.IsMade := by
  unfold Radical.intPow at power
  split at power
  · cases power
    exact ha.natPow _
  · split at power
    · cases power
    · cases power
      exact natPow (ofParts ((a.isMade_iff).mp ha) _ _) _

end IsMade

/-- **What is built can be made**: no operation leaves the radicands that can be searched for
squares. -/
theorem IsBuilt.isMade {a : Radical} (built : IsBuilt a) : a.IsMade := by
  induction built with
  | make made => exact ⟨_, _, made⟩
  | sqrt root => exact ⟨_, _, root⟩
  | rationalPower power => exact .rationalPower power
  | neg _ ih => exact ih.neg
  | abs _ ih => exact .ofParts ((isMade_iff _).mp ih) _ _
  | add _ _ sum iha ihb => exact iha.add ihb sum
  | sub _ _ difference iha ihb => exact iha.add ihb.neg difference
  | mul _ _ product _ _ => exact ⟨_, _, product⟩
  | div _ _ quotient _ _ =>
    unfold Radical.div at quotient
    split at quotient
    · cases quotient
    · exact ⟨_, _, quotient⟩
  | intPow _ power ih => exact ih.intPow power

/-- **Radicals are canonical and exact.** A radical that can be built has a square-free radicand and
one form for zero, and is put together again from its own parts; two of them are equal exactly if they
denote the same number; and whatever an operation answers is the number that it stands for. Two of
them that are not zero have a sum exactly if their radicands are equal. -/
theorem canonical_exact :
    (∀ a, IsBuilt a → Squarefree a.radicand ∧ 0 < a.radicand ∧
      (a.real = 0 → a.coefficient = 0 ∧ a.radicand = 1) ∧ make a.coefficient a.radicand = .ok a) ∧
    (∀ a b, IsBuilt a → IsBuilt b → (a = b ↔ a.real = b.real)) ∧
    (∀ (c r : ℚ) (a : Radical), make c r = .ok a → 0 ≤ r ∧ a.real = c * √(r : ℝ)) ∧
    (∀ (q : ℚ) (a : Radical), sqrt q = .ok a → 0 ≤ q ∧ a.real = √(q : ℝ)) ∧
    (∀ a : Radical, a.neg.real = -a.real ∧ a.abs.real = |a.real|) ∧
    (∀ a b c : Radical, a.add b = .ok c → c.real = a.real + b.real) ∧
    (∀ a b c : Radical, a.sub b = .ok c → c.real = a.real - b.real) ∧
    (∀ a b c : Radical, a.mul b = .ok c → c.real = a.real * b.real) ∧
    (∀ a b c : Radical, a.div b = .ok c → b.real ≠ 0 ∧ c.real = a.real / b.real) ∧
    (∀ (a b : Radical) (n : Int), a.intPow n = .ok b →
      (n < 0 → a.real ≠ 0) ∧ b.real = a.real ^ n) ∧
    ∀ a b, IsBuilt a → IsBuilt b → a.real ≠ 0 → b.real ≠ 0 →
      ((∃ c, a.add b = .ok c) ↔ a.radicand = b.radicand) := by
  have coefficient_ne : ∀ a : Radical, a.real ≠ 0 → a.coefficient ≠ 0 := by
    intro a nonzero zero
    exact nonzero (a.isZero_iff.mp (by simpa [isZero] using zero))
  refine ⟨?_, fun a b _ _ => eq_iff_real_eq, ?_, ?_, fun a => ⟨a.real_neg, a.real_abs⟩,
    fun a b c => real_add, fun a b c => real_sub, fun a b c => real_mul, fun a b c => real_div,
    fun a b n => real_intPow, ?_⟩
  · intro a built
    refine ⟨squareFree_iff.mp a.squareFree, a.squareFree.pos, fun zero => ?_, ?_⟩
    · have none : a.coefficient = 0 := by simpa [isZero] using a.isZero_iff.mpr zero
      exact ⟨none, a.radicand_of_zero none⟩
    · rw [built.isMade.make_coefficient, ofParts_self]
  · intro c r a made
    exact ⟨nonneg_of_make made, real_make made⟩
  · intro q a root
    exact ⟨nonneg_of_make root, real_sqrt root⟩
  · intro a b _ _ ha hb
    exact add_isOk_iff (coefficient_ne a ha) (coefficient_ne b hb)

end ExactAlgebra.Radical
