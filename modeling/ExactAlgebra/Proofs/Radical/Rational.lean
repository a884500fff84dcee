import ExactAlgebra.Radical.Basic
import Mathlib.Data.Rat.Lemmas
import Mathlib.Tactic.NormNum

/-!
# Rational radicals

A radical without a root is a rational, and arithmetic of those is arithmetic of rationals. It never
fails, apart from division by zero.

## Main statements

* `eq_ofRat` — a rational radical is determined by its coefficient;
* `neg_ofRat`, `add_ofRat`, `mul_ofRat`, `div_ofRat` — arithmetic.
-/

namespace ExactAlgebra.Radical

theorem eq_ofRat {a : Radical} (rational : a.isRational = true) : a = ofRat a.coefficient := by
  obtain ⟨c, m, squareFree, zero⟩ := a
  obtain rfl : m = 1 := by simpa [isRational] using rational
  rfl

@[simp]
theorem isRational_ofRat (q : ℚ) : (ofRat q).isRational = true := rfl

theorem ofParts_one (c : ℚ) (h : SquareFree 1) : ofParts c 1 h = ofRat c := by
  rw [ofParts]
  split
  · rename_i zero
    rw [zero]
  · rfl

@[simp]
theorem neg_ofRat (q : ℚ) : (ofRat q).neg = ofRat (-q) :=
  ofParts_one _ _

theorem add_ofRat (p q : ℚ) : (ofRat p).add (ofRat q) = .ok (ofRat (p + q)) := by
  rw [add]
  by_cases hq : q = 0
  · simp [isZero, ofRat, hq]
  · by_cases hp : p = 0
    · simp [isZero, ofRat, hp, hq]
    · simp only [isZero, ofRat, hp, hq, decide_false, Bool.false_eq_true, if_false]
      exact congrArg Except.ok (ofParts_one _ _)

theorem make_one (q : ℚ) : make q 1 = .ok (ofRat q) := by
  have split : splitSquare ((1 : ℚ).num.natAbs * (1 : ℚ).den) = .ok (1, 1) := by decide +kernel
  rw [make, if_neg (by decide)]
  by_cases zero : q = 0 ∨ (1 : ℚ) = 0
  · obtain rfl : q = 0 := by simpa using zero
    rfl
  · rw [dif_neg zero]
    split
    · rename_i found
      rw [split] at found
      cases found
    · rename_i k m found
      rw [split] at found
      cases found
      have whole : q * ((1 : ℕ) / ((1 : ℚ).den : ℚ)) = q := by simp
      exact congrArg Except.ok ((ofParts_one _ _).trans (congrArg ofRat whole))

theorem mul_ofRat (p q : ℚ) : (ofRat p).mul (ofRat q) = .ok (ofRat (p * q)) := by
  rw [mul]
  simp only [ofRat, Nat.cast_one, mul_one]
  exact make_one _

theorem div_ofRat (p : ℚ) {q : ℚ} (nonzero : q ≠ 0) :
    (ofRat p).div (ofRat q) = .ok (ofRat (p / q)) := by
  rw [div]
  simp only [isZero, ofRat, nonzero, decide_false, Bool.false_eq_true, if_false, Nat.cast_one,
    mul_one]
  exact make_one _

end ExactAlgebra.Radical
