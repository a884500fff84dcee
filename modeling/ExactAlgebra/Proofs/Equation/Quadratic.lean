import ExactAlgebra.Equation.Root
import ExactAlgebra.Proofs.Error.Run
import ExactAlgebra.Proofs.Factoring.Product
import ExactAlgebra.Proofs.Radical.Root

/-!
# The quadratic formula

A quadratic is solved by the root of its discriminant. Multiplied by a number, the quadratic has the
discriminant multiplied by the square of that number, so the roots stay what they are, up to their
order. The exception is a discriminant that is no square and too large for its root to be simplified:
the size of the discriminant does depend on the multiple.

## Main statements

* `realRoots_fails_iff` — the quadratics that are refused;
* `realRoots_mul` — the roots of a multiple.
-/

namespace ExactAlgebra

/-! ## Multiples of radicals -/

namespace Radical

theorem real_scale (k : ℚ) (a : Radical) : (a.scale k).real = k * a.real := by
  rw [scale, real_ofParts, real]
  push_cast
  ring

end Radical

/-! ## Quadratics -/

namespace Dense

section Scaled

variable {a b c k : ℚ}

theorem discriminant_mul : discriminant (k * a) (k * b) (k * c) = k * k * discriminant a b c := by
  unfold discriminant
  ring

theorem quadraticRoots?_eq_none_iff : quadraticRoots? a b c = none ↔ ¬ IsSquare (discriminant a b c) := by
  unfold quadraticRoots?
  rw [Option.map_eq_none_iff, Rational.sqrt?_eq_none_iff]
  rfl

/-- A discriminant that is no square is not zero. -/
theorem discriminant_pos (nonneg : ¬ discriminant a b c < 0) (irrational : quadraticRoots? a b c = none) :
    0 < discriminant a b c := by
  apply lt_of_le_of_ne (not_lt.mp nonneg)
  intro zero
  exact quadraticRoots?_eq_none_iff.mp irrational ⟨0, by rw [← zero, mul_zero]⟩

/-- **The quadratics that are refused**: those whose discriminant has a root that is refused. -/
theorem realRoots_fails_iff (a b c : ℚ) :
    (∃ fault, realRoots a b c = .error fault) ↔ Radical.RootTooLarge (discriminant a b c) := by
  unfold realRoots
  split
  · rename_i negative
    constructor
    · rintro ⟨_, ⟨⟩⟩
    · rintro ⟨positive, -, -⟩
      exact absurd positive (not_lt.mpr negative.le)
  · rename_i nonneg
    split
    · rename_i r s found
      constructor
      · rintro ⟨_, ⟨⟩⟩
      · rintro ⟨-, irrational, -⟩
        rw [quadraticRoots?_eq_none_iff.mpr irrational] at found
        cases found
    · rename_i missing
      rw [← Radical.sqrt_fails_iff (discriminant_pos nonneg missing)]
      cases found : Radical.sqrt (discriminant a b c) with
      | error fault => exact ⟨fun _ => ⟨fault, rfl⟩, fun _ => ⟨fault, rfl⟩⟩
      | ok root =>
        constructor
        · rintro ⟨_, ⟨⟩⟩
        · rintro ⟨_, ⟨⟩⟩

variable (nonzero : k ≠ 0)

include nonzero

/-- **The rational roots of a multiple** come in the other order if the factor is negative. -/
theorem quadraticRoots?_mul : quadraticRoots? (k * a) (k * b) (k * c) = quadraticRoots? a b c ∨
    quadraticRoots? (k * a) (k * b) (k * c) = (quadraticRoots? a b c).map Prod.swap := by
  have square : k * b * (k * b) - 4 * (k * a) * (k * c) = k * k * (b * b - 4 * a * c) := by ring
  unfold quadraticRoots?
  rw [square, Rational.sqrt?_mul nonzero, Option.map_map, Option.map_map]
  rcases abs_choice k with same | opposite
  · left
    congr 1
    funext root
    show ((-(k * b) + |k| * root) / (2 * (k * a)), (-(k * b) - |k| * root) / (2 * (k * a))) = _
    rw [same, mul_left_comm 2 k a, ← mul_neg, ← mul_add, ← mul_sub, mul_div_mul_left _ _ nonzero,
      mul_div_mul_left _ _ nonzero]
  · right
    congr 1
    funext root
    show ((-(k * b) + |k| * root) / (2 * (k * a)), (-(k * b) - |k| * root) / (2 * (k * a))) =
      ((-b - root) / (2 * a), (-b + root) / (2 * a))
    have first : -(k * b) + |k| * root = k * (-b - root) := by
      rw [opposite]
      ring
    have second : -(k * b) - |k| * root = k * (-b + root) := by
      rw [opposite]
      ring
    rw [first, second, mul_left_comm 2 k a, mul_div_mul_left _ _ nonzero, mul_div_mul_left _ _ nonzero]

/-- The offsets of the roots from their middle are the same numbers, up to the sign of the factor. -/
theorem scale_mul {root root' : Radical} (value : root'.real = |(k : ℝ)| * root.real) :
    root'.scale (1 / (2 * (k * a))) = root.scale (1 / (2 * a)) ∨
      root'.scale (1 / (2 * (k * a))) = (root.scale (1 / (2 * a))).neg := by
  have real : (k : ℝ) ≠ 0 := Rat.cast_ne_zero.mpr nonzero
  rcases abs_choice (k : ℝ) with same | opposite
  · left
    apply Radical.real_injective
    rw [Radical.real_scale, Radical.real_scale, value, same]
    push_cast
    field_simp
  · right
    apply Radical.real_injective
    rw [Radical.real_neg, Radical.real_scale, Radical.real_scale, value, opposite]
    push_cast
    field_simp

/-- **The roots of a multiple** are the same, in the same order or in the other one. -/
theorem realRoots_mul {x y : Option (Root × Root)} (found : realRoots a b c = .ok x)
    (found' : realRoots (k * a) (k * b) (k * c) = .ok y) : y = x ∨ y = x.map Prod.swap := by
  have sign : discriminant (k * a) (k * b) (k * c) < 0 ↔ discriminant a b c < 0 := by
    rw [discriminant_mul, ← not_le, ← not_le, mul_nonneg_iff_of_pos_left (mul_self_pos.mpr nonzero)]
  by_cases negative : discriminant a b c < 0
  · rw [realRoots, if_pos negative] at found
    rw [realRoots, if_pos (sign.mpr negative)] at found'
    cases found
    cases found'
    exact .inl rfl
  rw [realRoots, if_neg negative] at found
  rw [realRoots, if_neg (sign.not.mpr negative)] at found'
  have formula := quadraticRoots?_mul (a := a) (b := b) (c := c) nonzero
  cases rational : quadraticRoots? a b c with
  | some roots =>
    rw [rational] at found formula
    cases found
    rcases formula with same | swapped
    · rw [same] at found'
      cases found'
      exact .inl rfl
    · rw [swapped] at found'
      cases found'
      exact .inr rfl
  | none =>
    rw [rational, Option.map_none, or_self] at formula
    rw [rational] at found
    rw [formula] at found'
    obtain ⟨root, taken, rfl⟩ := ok_of_map found
    obtain ⟨root', taken', rfl⟩ := ok_of_map found'
    have nonneg : (0 : ℝ) ≤ (k * k : ℚ) := by exact_mod_cast mul_self_nonneg k
    have value : root'.real = |(k : ℝ)| * root.real := by
      rw [Radical.real_sqrt taken', Radical.real_sqrt taken, discriminant_mul, Rat.cast_mul,
        Real.sqrt_mul nonneg, Rat.cast_mul, Real.sqrt_mul_self_eq_abs]
    have base : -(k * b) / (2 * (k * a)) = -b / (2 * a) := by
      rw [mul_left_comm 2 k a, ← mul_neg, mul_div_mul_left _ _ nonzero]
    dsimp only
    rw [base]
    rcases scale_mul nonzero value with same | opposite
    · left
      rw [same]
    · right
      rw [opposite, Radical.neg_neg_self]
      rfl

end Scaled

end Dense

end ExactAlgebra
