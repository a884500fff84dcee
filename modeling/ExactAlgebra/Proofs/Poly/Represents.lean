import ExactAlgebra.Proofs.Poly.Natural
import ExactAlgebra.Poly.Power

/-!
# Polynomials in one given variable

Arithmetic refuses operands in different variables. Polynomials that are all in the same variable,
or are constants without one, can be added and multiplied freely; the result is again of that kind,
and it stands for the sum and the product over the rationals.

## Main statements

* `Represents.neg`, `Represents.add`, `Represents.sub`, `Represents.mul`, `Represents.divide` —
  arithmetic;
* `Represents.terms_eq`, `Represents.same` — what is represented determines the polynomial.

## Main definitions

* `Poly.Represents` — a polynomial in a given variable, or a constant, that stands for a polynomial
  over the rationals.
-/

namespace ExactAlgebra.Poly

open Polynomial

/-- **A polynomial in the variable `symbol` that stands for `v`**; a constant need not name the
variable. -/
structure Represents (p : Poly) (symbol : String) (v : ℚ[X]) : Prop where
  natural : p.IsNatural
  value : p.toPolynomial = v
  named : p.symbol = symbol ∨ p.symbol = "" ∧ v.natDegree = 0

variable {p q : Poly} {symbol : String} {v w : ℚ[X]}

/-! ## Numbers and powers -/

theorem represents_constant (c : ℚ) (symbol : String) :
    (constant (.ofRat c) "").Represents symbol (C c) where
  natural := isNatural_ofTerm_natural c 0 ""
  value := toPolynomial_ofTerm_natural c 0 ""
  named := .inr ⟨rfl, natDegree_C c⟩

theorem represents_power (symbol : String) (n : Nat) :
    (power symbol n).Represents symbol (X ^ n) where
  natural := isNatural_ofTerm_natural 1 n symbol
  value := by
    rw [X_pow_eq_monomial]
    exact toPolynomial_ofTerm_natural 1 n symbol
  named := .inl rfl

/-! ## Arithmetic -/

namespace Represents

theorem neg (hp : p.Represents symbol v) : p.neg.Represents symbol (-v) where
  natural := (neg_natural hp.natural).1
  value := by rw [(neg_natural hp.natural).2, hp.value]
  named := by
    rw [natDegree_neg]
    exact hp.named

/-- Two such polynomials have a common name, and the result names it unless both are constants. -/
theorem compatible (hp : p.Represents symbol v) (hq : q.Represents symbol w) :
    p.symbol = "" ∨ q.symbol = "" ∨ p.symbol = q.symbol := by
  rcases hp.named with left | ⟨left, -⟩
  · rcases hq.named with right | ⟨right, -⟩
    · exact .inr (.inr (left.trans right.symm))
    · exact .inr (.inl right)
  · exact .inl left

theorem named_result (hp : p.Represents symbol v) (hq : q.Represents symbol w) {u : ℚ[X]}
    (constant : v.natDegree = 0 → w.natDegree = 0 → u.natDegree = 0) :
    (if p.symbol = "" then q.symbol else p.symbol) = symbol ∨
      (if p.symbol = "" then q.symbol else p.symbol) = "" ∧ u.natDegree = 0 := by
  rcases hp.named with left | ⟨left, degree⟩
  · rw [left]
    split
    · rename_i none
      rcases hq.named with right | ⟨right, -⟩
      · exact .inl right
      · exact .inl (right.trans none.symm)
    · exact .inl rfl
  · rw [if_pos left]
    rcases hq.named with right | ⟨right, degree'⟩
    · exact .inl right
    · exact .inr ⟨right, constant degree degree'⟩

/-- **The sum.** -/
theorem add (hp : p.Represents symbol v) (hq : q.Represents symbol w) :
    ∃ r, p.add q = .ok r ∧ r.Represents symbol (v + w) := by
  obtain ⟨r, added, natural, name, value⟩ :=
    add_natural hp.natural hq.natural (hp.compatible hq)
  refine ⟨r, added, natural, by rw [value, hp.value, hq.value], ?_⟩
  rw [name]
  refine hp.named_result hq fun left right => ?_
  exact Nat.le_zero.mp ((natDegree_add_le v w).trans (by rw [left, right, max_self]))

/-- **The difference.** -/
theorem sub (hp : p.Represents symbol v) (hq : q.Represents symbol w) :
    ∃ r, p.sub q = .ok r ∧ r.Represents symbol (v - w) := by
  rw [sub_eq_add_neg]
  exact hp.add hq.neg

/-- **The product.** -/
theorem mul (hp : p.Represents symbol v) (hq : q.Represents symbol w) :
    ∃ r, p.mul q = .ok r ∧ r.Represents symbol (v * w) := by
  obtain ⟨r, multiplied, natural, name, value⟩ :=
    mul_natural hp.natural hq.natural (hp.compatible hq)
  refine ⟨r, multiplied, natural, by rw [value, hp.value, hq.value], ?_⟩
  rw [name]
  refine hp.named_result hq fun left right => ?_
  exact Nat.le_zero.mp (natDegree_mul_le.trans (by rw [left, right]))

/-- **The quotient by a number** other than zero. -/
theorem divide (hp : p.Represents symbol v) {c : ℚ} (nonzero : c ≠ 0) :
    ∃ r, p.divide (constant (.ofRat c) "") = .ok r ∧ r.Represents symbol (v * C c⁻¹) := by
  obtain ⟨r, divided, natural, name, value⟩ := divide_natural hp.natural nonzero
  refine ⟨r, divided, natural, by rw [value, hp.value, mul_comm], ?_⟩
  rw [name]
  refine hp.named.imp_right fun ⟨nameless, degree⟩ => ⟨nameless, ?_⟩
  exact Nat.le_zero.mp (natDegree_mul_le.trans (by rw [degree, natDegree_C]))

/-! ## What is represented -/

/-- **The terms are determined.** -/
theorem terms_eq (hp : p.Represents symbol v) {symbol' : String} (hq : q.Represents symbol' v) :
    p.terms = q.terms :=
  terms_eq_of_toPolynomial_eq hp.natural hq.natural (hp.value.trans hq.value.symm)

end Represents

/-- Terms without the variable have degree zero. -/
theorem natDegree_sum_of_powers {ts : List Term} (powers : ∀ t ∈ ts, t.power = 0) :
    (Term.sum ts).natDegree = 0 := by
  induction ts with
  | nil => exact natDegree_zero
  | cons t rest ih =>
    obtain ⟨here, there⟩ := List.forall_mem_cons.mp powers
    have constant : t.toPolynomial = C t.coefficient.coefficient := by
      rw [Term.toPolynomial, here]
      rfl
    rw [Term.sum_cons, constant, natDegree_C_add, ih there]

/-- A polynomial of degree zero has no other term than a constant. -/
theorem isConstant_of_natDegree_eq_zero (natural : p.IsNatural)
    (degree : p.toPolynomial.natDegree = 0) : p.isConstant = true := by
  have powers : ∀ t ∈ p.terms, t.power = 0 := by
    intro t mem
    obtain ⟨c, n, rfl⟩ := t.isNatural_iff.mp (natural t mem)
    obtain ⟨nonzero, coefficient⟩ := (mem_iff_coeff natural p.descending p.nonzero c n).mp mem
    have bound : n ≤ p.toPolynomial.natDegree := by
      refine le_natDegree_of_ne_zero ?_
      rw [toPolynomial, coefficient]
      exact nonzero
    rw [degree, Nat.le_zero] at bound
    subst bound
    rfl
  exact p.isConstant_iff.mpr powers

/-- **A polynomial that represents the same is the same**, if the other one names the variable or is
a constant. -/
theorem Represents.same (hq : q.Represents symbol p.toPolynomial) (natural : p.IsNatural)
    (named : p.symbol = symbol ∨ p.isConstant = true) : q.same p = true := by
  have terms := terms_eq_of_toPolynomial_eq hq.natural natural hq.value
  have constant : q.isConstant = p.isConstant := by rw [isConstant, isConstant, terms]
  rw [Poly.same, terms]
  simp only [decide_true, Bool.true_and, Bool.or_eq_true, decide_eq_true_eq]
  rcases hq.named with name | ⟨-, degree⟩
  · rw [constant]
    exact named.symm.imp_right fun here => name.trans here.symm
  · exact .inl (constant.trans (isConstant_of_natDegree_eq_zero natural degree))

end ExactAlgebra.Poly
