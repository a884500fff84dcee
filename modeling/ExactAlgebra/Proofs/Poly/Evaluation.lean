import ExactAlgebra.Proofs.Poly.Natural
import Mathlib.Algebra.CharZero.Infinite

/-!
# Evaluation respects arithmetic

The value of a polynomial comes from the list of all its coefficients, while sums and products are
formed from the terms that are there. Both stand for the same polynomial over the rationals, so the
value of a sum, a product or a power is what the values of the operands give.

There are infinitely many rational points. So two polynomials with the same values everywhere stand
for the same polynomial over the rationals, and their terms are the same.

## Main statements

* `mulPow_natural`, `natPow_natural` — powers of polynomials with natural powers;
* `terms_eq_iff_evaluate` — the values determine the terms;
* `evaluate_homomorphism` — evaluation is a homomorphism, and equality is equality of all values.
-/

namespace ExactAlgebra.Poly

open Polynomial

variable {p q : Poly}

/-! ## Powers -/

/-- **Repeated multiplication** of polynomials in one variable. -/
theorem mulPow_natural {acc : Poly} (start : acc.IsNatural) (natural : p.IsNatural)
    (same : acc.symbol = p.symbol) (n : Nat) :
    ∃ r, mulPow acc p n = .ok r ∧ r.IsNatural ∧
      r.toPolynomial = acc.toPolynomial * p.toPolynomial ^ n := by
  induction n generalizing acc with
  | zero => exact ⟨acc, rfl, start, by rw [pow_zero, mul_one]⟩
  | succ n ih =>
    obtain ⟨next, multiplied, natural', name, value⟩ := mul_natural start natural (.inr (.inr same))
    -- the product names the variable that both factors name
    have kept : next.symbol = p.symbol := by
      rw [name, same, ite_self]
    obtain ⟨r, power, isNatural, result⟩ := ih natural' kept
    refine ⟨r, ?_, isNatural, ?_⟩
    · rw [mulPow, multiplied]
      exact power
    · rw [result, value, pow_succ', mul_assoc]

/-- **Natural powers never fail.** -/
theorem natPow_natural (natural : p.IsNatural) (n : Nat) :
    ∃ r, p.natPow n = .ok r ∧ r.IsNatural ∧ r.toPolynomial = p.toPolynomial ^ n := by
  have one : (constant (.ofRat 1) p.symbol).IsNatural := isNatural_ofTerm_natural 1 0 p.symbol
  have value : (constant (.ofRat 1) p.symbol).toPolynomial = 1 :=
    toPolynomial_ofTerm_natural 1 0 p.symbol
  obtain ⟨r, power, isNatural, result⟩ := mulPow_natural one natural rfl n
  exact ⟨r, power, isNatural, by rw [result, value, one_mul]⟩

/-! ## Equality -/

/-- **The values determine the terms.** -/
theorem terms_eq_iff_evaluate (hp : p.IsNatural) (hq : q.IsNatural) :
    p.terms = q.terms ↔ ∀ t, p.evaluate t = q.evaluate t := by
  constructor
  · intro terms t
    rw [evaluate_natural hp, evaluate_natural hq, toPolynomial, toPolynomial, terms]
  · intro values
    apply terms_eq_of_toPolynomial_eq hp hq
    -- two polynomials over an infinite field with the same values are equal
    apply Polynomial.funext
    intro t
    have value := values t
    rw [evaluate_natural hp, evaluate_natural hq] at value
    exact Except.ok.inj value

theorem same_iff_terms_eq (named : p.symbol = q.symbol ∨ p.isConstant = true ∨ q.isConstant = true) :
    p.same q = true ↔ p.terms = q.terms := by
  rw [same, Bool.and_eq_true, Bool.or_eq_true, decide_eq_true_eq, decide_eq_true_eq,
    and_iff_left_iff_imp]
  intro terms
  have constant : q.isConstant = p.isConstant := by rw [isConstant, isConstant, terms]
  rw [constant, or_self] at named
  exact named.symm

/-! ## Values of results -/

/-- **Evaluation is a homomorphism.** Two polynomials with rational coefficients and natural powers
have a value at every rational point. The values of the opposite and of every power are those of the
polynomial, taken to the opposite and to the power. If the polynomials are in one variable, where a
constant need not name it, then sum, difference and product are there, and so are their values. Two
polynomials in one variable, one of which may be a constant, are equal just if all their values
are. -/
theorem evaluate_homomorphism (p q : Poly) (rational : p.hasRationalCoefficients = true)
    (powers : p.hasNaturalPowers = true) (rational' : q.hasRationalCoefficients = true)
    (powers' : q.hasNaturalPowers = true) :
    ∃ value value' : ℚ → ℚ, (∀ t, p.evaluate t = .ok (value t)) ∧
      (∀ t, q.evaluate t = .ok (value' t)) ∧
      (∀ t, p.neg.evaluate t = .ok (-value t)) ∧
      (∀ n : ℕ, ∃ r, p.intPow n = .ok r ∧ ∀ t, r.evaluate t = .ok (value t ^ n)) ∧
      (p.symbol = "" ∨ q.symbol = "" ∨ p.symbol = q.symbol →
        (∃ r, p.add q = .ok r ∧ ∀ t, r.evaluate t = .ok (value t + value' t)) ∧
        (∃ r, p.sub q = .ok r ∧ ∀ t, r.evaluate t = .ok (value t - value' t)) ∧
        (∃ r, p.mul q = .ok r ∧ ∀ t, r.evaluate t = .ok (value t * value' t))) ∧
      (p.symbol = q.symbol ∨ p.isConstant = true ∨ q.isConstant = true →
        (p.same q = true ↔ ∀ t, p.evaluate t = q.evaluate t)) := by
  have hp := p.isNatural_iff.mpr ⟨rational, powers⟩
  have hq := q.isNatural_iff.mpr ⟨rational', powers'⟩
  obtain ⟨opposite, negated⟩ := neg_natural hp
  refine ⟨fun t => p.toPolynomial.eval t, fun t => q.toPolynomial.eval t, evaluate_natural hp,
    evaluate_natural hq, fun t => ?_, fun n => ?_, fun compatible => ⟨?_, ?_, ?_⟩, fun named => ?_⟩
  · rw [evaluate_natural opposite, negated, eval_neg]
  · obtain ⟨r, power, natural, value⟩ := natPow_natural hp n
    refine ⟨r, ?_, fun t => by rw [evaluate_natural natural, value, eval_pow]⟩
    rw [intPow, if_neg (not_lt.mpr (Int.natCast_nonneg n)), Int.natAbs_natCast]
    exact power
  · obtain ⟨r, added, natural, -, value⟩ := add_natural hp hq compatible
    exact ⟨r, added, fun t => by rw [evaluate_natural natural, value, eval_add]⟩
  · obtain ⟨opposite', negated'⟩ := neg_natural hq
    obtain ⟨r, added, natural, -, value⟩ := add_natural hp opposite' compatible
    refine ⟨r, added, fun t => ?_⟩
    rw [evaluate_natural natural, value, negated', ← sub_eq_add_neg, eval_sub]
  · obtain ⟨r, multiplied, natural, -, value⟩ := mul_natural hp hq compatible
    exact ⟨r, multiplied, fun t => by rw [evaluate_natural natural, value, eval_mul]⟩
  · rw [same_iff_terms_eq named, terms_eq_iff_evaluate hp hq]

/-- The product of `x² - 2` and `3x + 1`, and two lists of coefficients for one polynomial. -/
theorem evaluate_homomorphism_product :
    (∃ r, (ofCoefficients [1, 0, -2] "x").mul (ofCoefficients [3, 1] "x") = .ok r ∧
      ∀ t, r.evaluate t = .ok ((t * t - 2) * (3 * t + 1))) ∧
    (ofCoefficients [0, 1, 0, -2] "x").same (ofCoefficients [1, 0, -2] "x") = true := by
  obtain ⟨value, value', left, right, -, -, arithmetic, -⟩ :=
    evaluate_homomorphism (ofCoefficients [1, 0, -2] "x") (ofCoefficients [3, 1] "x")
      (by decide +kernel) (by decide +kernel) (by decide +kernel) (by decide +kernel)
  obtain ⟨-, -, r, multiplied, product⟩ := arithmetic (.inr (.inr rfl))
  obtain ⟨-, -, -, -, -, -, -, equality⟩ :=
    evaluate_homomorphism (ofCoefficients [0, 1, 0, -2] "x") (ofCoefficients [1, 0, -2] "x")
      (by decide +kernel) (by decide +kernel) (by decide +kernel) (by decide +kernel)
  refine ⟨⟨r, multiplied, fun t => ?_⟩, (equality (.inl rfl)).mpr fun t => ?_⟩
  · have first : horner [1, 0, -2] t = value t :=
      Except.ok.inj ((evaluate_ofCoefficients _ "x" t).symm.trans (left t))
    have second : horner [3, 1] t = value' t :=
      Except.ok.inj ((evaluate_ofCoefficients _ "x" t).symm.trans (right t))
    rw [product, ← first, ← second]
    congr 1
    simp only [horner, List.foldl_cons, List.foldl_nil]
    ring
  · rw [evaluate_ofCoefficients, evaluate_ofCoefficients]
    simp [horner]

end ExactAlgebra.Poly
