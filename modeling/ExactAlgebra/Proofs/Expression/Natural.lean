import ExactAlgebra.Proofs.Expression.Writing
import ExactAlgebra.Proofs.Poly.Represents

/-!
# Reading polynomials with rational coefficients and natural powers

Tokens in one variable can be said to stand for a polynomial over the rationals, as a factor, as a
product or as a sum. What stands for a factor may be followed by anything but an exponent, and what
stands for a product by anything that multiplies it further; so tokens can be put together without a
look at what the readers do.

## Main statements

* `factor_of_value`, `factor_minus`, `factor_paren` — factors;
* `ProductTokens.times`, `product_rational`, `product_term` — products;
* `sum_poly` — the tokens of a polynomial stand for it.

## Main definitions

* `FactorTokens`, `MoreTokens`, `ProductTokens`, `SumTokens` — what tokens stand for.
-/

namespace ExactAlgebra.Expression

open Polynomial Text

variable (text symbol : String)

/-- **The tokens of a factor**: they are read as a signed power that stands for `v`. -/
def FactorTokens (ts : List Token) (v : ℚ[X]) : Prop :=
  ∀ rest, NoCaret rest → ∃ p, Reads (unary text (ts ++ rest)) p rest ∧ p.Represents symbol v

/-- **The tokens of further factors**: they multiply any product by `v`. -/
def MoreTokens (ts : List Token) (v : ℚ[X]) : Prop :=
  NoCaret ts ∧ ∀ p w rest, p.Represents symbol w → NoCaret rest →
    ∃ q, q.Represents symbol (w * v) ∧ ∀ total after,
      Reads (multiplyFactors text q rest) total after →
        Reads (multiplyFactors text p (ts ++ rest)) total after

/-- **The tokens of a product** that stands for `v`: a factor, and further ones. -/
def ProductTokens (ts : List Token) (v : ℚ[X]) : Prop :=
  ∃ first more u w, ts = first ++ more ∧ FactorTokens text symbol first u ∧
    MoreTokens text symbol more w ∧ u * w = v

/-- **The tokens of a sum** that stands for `v`. -/
def SumTokens (ts : List Token) (v : ℚ[X]) : Prop :=
  ∀ rest, (∀ t ∈ rest.head?, t = .closing) →
    ∃ p, Reads (expression text (ts ++ rest)) p rest ∧ p.Represents symbol v

variable {text symbol} {ts us : List Token} {u v w : ℚ[X]}

/-! ## Factors -/

theorem reads_of_value {f : Grammar.Signed} {p : Poly} (value : f.value = .ok p) {rest : List Token}
    (plain : NoCaret rest) : Reads (unary text (f.yield ++ rest)) p rest := by
  have read := f.answer_yield text plain
  rw [value] at read
  exact reads_iff.mpr read

/-- The tokens of a derivation stand for its value. -/
theorem factor_of_value {f : Grammar.Signed} {p : Poly} (value : f.value = .ok p)
    (represents : p.Represents symbol v) : FactorTokens text symbol f.yield v :=
  fun _ plain => ⟨p, reads_of_value value plain, represents⟩

theorem factor_variable (x : Char) (n : Nat) :
    FactorTokens text (String.singleton x) (variableTokens x n) (X ^ n) := by
  have value : (Grammar.Signed.power (variableTree x n)).value = _ := value_variableTree x n
  rw [← yield_variableTree]
  exact factor_of_value value (Poly.represents_power _ n)

theorem factor_minus (factor : FactorTokens text symbol ts v) :
    FactorTokens text symbol (.minus :: ts) (-v) := by
  intro rest plain
  obtain ⟨p, read, represents⟩ := factor rest plain
  exact ⟨p.neg, reads_minus read, represents.neg⟩

theorem factor_paren (sum : SumTokens text symbol ts v) :
    FactorTokens text symbol (.opening :: (ts ++ [.closing])) v := by
  intro rest plain
  obtain ⟨p, read, represents⟩ := sum (.closing :: rest) (by simp)
  refine ⟨p, ?_, represents⟩
  rw [List.cons_append, List.append_assoc, List.singleton_append]
  exact reads_unary (reads_power (reads_paren read) plain) ⟨by simp, by simp⟩

/-! ## Products -/

theorem more_nil : MoreTokens text symbol [] 1 := by
  refine ⟨by simp [NoCaret], fun p w rest represents _ => ⟨p, by rwa [mul_one], ?_⟩⟩
  exact fun _ _ read => read

theorem more_times (factor : FactorTokens text symbol ts v) :
    MoreTokens text symbol (.times :: ts) v := by
  refine ⟨by simp [NoCaret], fun p w rest represents plain => ?_⟩
  obtain ⟨q, read, here⟩ := factor rest plain
  obtain ⟨r, multiplied, product⟩ := represents.mul here
  exact ⟨r, product, fun _ _ more => reads_times read multiplied more⟩

theorem more_implicit {t : Token} (begins : t.beginsFactor = true)
    (factor : FactorTokens text symbol (t :: ts) v) : MoreTokens text symbol (t :: ts) v := by
  refine ⟨?_, fun p w rest represents plain => ?_⟩
  · rintro same
    obtain rfl := Option.some.inj same
    cases begins
  · obtain ⟨q, read, here⟩ := factor rest plain
    obtain ⟨r, multiplied, product⟩ := represents.mul here
    exact ⟨r, product, fun _ _ more => reads_implicit begins read multiplied more⟩

theorem more_dividedBy {n : Nat} (nonzero : n ≠ 0) :
    MoreTokens text symbol [.dividedBy, .number (natText n)] (C (n : ℚ)⁻¹) := by
  refine ⟨by simp [NoCaret], fun p w rest represents plain => ?_⟩
  obtain ⟨r, divided, quotient⟩ := represents.divide (Nat.cast_ne_zero.mpr nonzero)
  refine ⟨r, quotient, fun _ _ more => ?_⟩
  exact reads_dividedBy (reads_of_value (Grammar.value_numeral n) plain) divided more

theorem MoreTokens.append (first : MoreTokens text symbol ts v) (second : MoreTokens text symbol us w) :
    MoreTokens text symbol (ts ++ us) (v * w) := by
  refine ⟨first.1.append second.1, fun p u rest represents plain => ?_⟩
  obtain ⟨q, here, read⟩ := first.2 p u (us ++ rest) represents (second.1.append plain)
  obtain ⟨r, there, read'⟩ := second.2 q _ rest here plain
  refine ⟨r, by rwa [← mul_assoc], fun total after more => ?_⟩
  rw [List.append_assoc]
  exact read _ _ (read' _ _ more)

theorem FactorTokens.product (factor : FactorTokens text symbol ts v) :
    ProductTokens text symbol ts v :=
  ⟨ts, [], v, 1, by simp, factor, more_nil, mul_one v⟩

theorem ProductTokens.more (product : ProductTokens text symbol ts v)
    (more : MoreTokens text symbol us w) : ProductTokens text symbol (ts ++ us) (v * w) := by
  obtain ⟨first, before, u, u', rfl, factor, rest, rfl⟩ := product
  exact ⟨first, before ++ us, u, u' * w, List.append_assoc .., factor, rest.append more,
    (mul_assoc ..).symm⟩

/-- **Two products, multiplied.** -/
theorem ProductTokens.times (left : ProductTokens text symbol ts v)
    (right : ProductTokens text symbol us w) :
    ProductTokens text symbol (ts ++ .times :: us) (v * w) := by
  obtain ⟨first, more, u, u', rfl, factor, rest, rfl⟩ := right
  exact left.more ((more_times factor).append rest)

/-- A product is read as a term. -/
theorem ProductTokens.term (product : ProductTokens text symbol ts v) {rest : List Token}
    (ends : EndsTerm rest) :
    ∃ p, Reads (Expression.term text (ts ++ rest)) p rest ∧ p.Represents symbol v := by
  obtain ⟨first, more, u, w, rfl, factor, further, rfl⟩ := product
  obtain ⟨p, read, represents⟩ := factor (more ++ rest) (further.1.append ends.noCaret)
  obtain ⟨q, result, goesOn⟩ := further.2 p u rest represents ends.noCaret
  refine ⟨q, ?_, result⟩
  rw [List.append_assoc]
  exact reads_term read (goesOn _ _ (reads_endOfProduct ends.endsProduct))

/-! ## Numbers and terms -/

/-- **The tokens of a rational stand for it.** -/
theorem product_rational (q : ℚ) : ProductTokens text symbol (Rational.tokens q) (C q) := by
  -- the sign belongs to the numerator, and the denominator divides what is read by then
  have numerator : FactorTokens text symbol
      ((if q < 0 then [.minus] else []) ++ [.number (natText q.num.natAbs)]) (C (q.num : ℚ)) := by
    have yield : (if q < 0 then [.minus] else []) ++ [.number (natText q.num.natAbs)] =
        (if q < 0 then .minus (Grammar.numeral q.num.natAbs)
          else Grammar.numeral q.num.natAbs : Grammar.Signed).yield := by
      split <;> rfl
    rw [yield]
    exact factor_of_value (Rational.value_numerator q) (Poly.represents_constant _ symbol)
  have denominator : MoreTokens text symbol
      (if q.den = 1 then [] else [.dividedBy, .number (natText q.den)]) (C (q.den : ℚ)⁻¹) := by
    split
    · rename_i one
      rw [one, Nat.cast_one, inv_one, C_1]
      exact more_nil
    · exact more_dividedBy q.den_nz
  have product := numerator.product.more denominator
  rw [← C_mul, ← div_eq_mul_inv, Rat.num_div_den] at product
  rwa [List.append_assoc] at product

/-- **The tokens of a term stand for it.** -/
theorem product_term {c : ℚ} (nonzero : c ≠ 0) (n : Nat) (x : Char) :
    ProductTokens text (String.singleton x) ((Term.natural c n).tokens x) (monomial n c) := by
  have power : FactorTokens text (String.singleton x) (variableTokens x n) (X ^ n) :=
    factor_variable x n
  have number : ProductTokens text (String.singleton x) (Rational.tokens c) (C c) :=
    product_rational c
  have radical : (Term.natural c n).coefficient.tokens = Rational.tokens c := rfl
  have exponent : (Term.natural c n).power = n := rfl
  rw [Term.tokens, radical, exponent, ← C_mul_X_pow_eq_monomial]
  have present : (Term.natural c n).coefficient.isZero = false := by
    simp [Term.natural, Radical.isZero, Radical.ofRat, nonzero]
  rw [present, if_neg Bool.false_ne_true]
  split
  · rename_i zero
    obtain rfl : n = 0 := by exact_mod_cast zero
    rwa [pow_zero, mul_one]
  · split
    · rename_i one
      obtain rfl : c = 1 := by simpa [Term.natural, Radical.ofRat] using one
      rw [C_1, one_mul]
      exact power.product
    · split
      · rename_i one
        obtain rfl : c = -1 := by simpa [Term.natural, Radical.ofRat] using one
        rw [C_neg, C_1, neg_one_mul]
        exact (factor_minus power).product
      · split
        · exact number.more (more_implicit rfl power)
        · exact number.times power.product

/-! ## Sums -/

/-- A product is read as a sum of one term. -/
theorem ProductTokens.sum (product : ProductTokens text symbol ts v) : SumTokens text symbol ts v := by
  intro rest ends
  obtain ⟨p, read, represents⟩ := product.term (endsTerm_of_closing ends)
  exact ⟨p, reads_expression read (reads_endOfSum (endsSum_of_closing ends)), represents⟩

/-- **The tokens of a polynomial stand for it.** -/
theorem sum_poly {p : Poly} (natural : p.IsNatural) (x : Char) :
    SumTokens text (String.singleton x) (p.tokens x) p.toPolynomial := by
  have made : ∀ t ∈ p.terms, t.coefficient.IsMade := fun t mem => by
    rw [Radical.isMade_iff, of_decide_eq_true (natural t mem).1]
    decide
  intro rest ends
  obtain ⟨q, value, terms, named⟩ := p.value_tree made x
  have read := (p.tree x).answer_yield text ends
  rw [p.yield_tree, value] at read
  refine ⟨q, reads_iff.mpr read, ?_, ?_, ?_⟩
  · unfold Poly.IsNatural
    rwa [terms]
  · rw [Poly.toPolynomial, terms, Poly.toPolynomial]
  · refine named.imp_right fun constant => ⟨constant.1, ?_⟩
    have powers := constant.2
    rw [terms] at powers
    exact Poly.natDegree_sum_of_powers powers

end ExactAlgebra.Expression
