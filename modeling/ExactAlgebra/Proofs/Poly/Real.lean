import ExactAlgebra.Proofs.Error.Run
import ExactAlgebra.Proofs.Poly.Single
import ExactAlgebra.Proofs.Radical.Power

/-!
# Polynomials as functions of a positive number

At a positive number every power of the variable has a value, and so has every polynomial. The
arithmetic of polynomials is the arithmetic of those values. For sums that is a fact about collecting
terms: wherever a term goes, the sum of all values is the same.

## Main statements

* `realAt_ofTerms` — collecting terms keeps the value;
* `realAt_neg`, `realAt_add`, `realAt_sub`, `realAt_mul`, `realAt_divide`, `realAt_natPow` —
  arithmetic;
* `isPower_raise` — rational powers.

## Main definitions

* `Term.realAt`, `Poly.realAt` — the value at a real number.
-/

namespace ExactAlgebra

open Radical (IsPower)

/-! ## Terms -/

namespace Term

/-- **The value of a term**, `coefficient · x ^ power`. -/
noncomputable def realAt (t : Term) (x : ℝ) : ℝ :=
  t.coefficient.real * x ^ (t.power : ℝ)

/-- The value of a sum of terms. -/
noncomputable def sumAt (ts : List Term) (x : ℝ) : ℝ :=
  (ts.map (·.realAt x)).sum

@[simp]
theorem sumAt_nil (x : ℝ) : sumAt [] x = 0 := rfl

@[simp]
theorem sumAt_cons (t : Term) (ts : List Term) (x : ℝ) :
    sumAt (t :: ts) x = t.realAt x + sumAt ts x :=
  List.sum_cons

theorem sumAt_append (ss ts : List Term) (x : ℝ) : sumAt (ss ++ ts) x = sumAt ss x + sumAt ts x := by
  unfold sumAt
  rw [List.map_append, List.sum_append]

/-- A number is its own value. -/
theorem realAt_constant (c : Radical) (x : ℝ) : realAt ⟨c, 0⟩ x = c.real := by
  show c.real * x ^ ((0 : ℚ) : ℝ) = c.real
  rw [Rat.cast_zero, Real.rpow_zero, mul_one]

end Term

open Term

/-! ## Collecting terms -/

section Collecting

variable {t : Term} {ts sums result : List Term} (x : ℝ)

/-- **A term that finds its place** adds its value. -/
theorem sumAt_insertTerm (inserted : insertTerm t sums = .ok result) :
    sumAt result x = t.realAt x + sumAt sums x := by
  induction sums generalizing result with
  | nil =>
    cases inserted
    rfl
  | cons s rest ih =>
    unfold insertTerm at inserted
    split at inserted
    · cases inserted
      rfl
    · split at inserted
      · -- the power is there already
        rename_i same
        obtain ⟨c, added, rfl⟩ := ok_of_map inserted
        rw [sumAt_cons, sumAt_cons, realAt, realAt, realAt, Radical.real_add added, same]
        ring
      · obtain ⟨more, there, rfl⟩ := ok_of_map inserted
        rw [sumAt_cons, ih there, sumAt_cons]
        ring

theorem sumAt_collect (collected : collect ts = .ok sums) : sumAt sums x = sumAt ts x := by
  -- the fold goes on from any sums that have been collected
  have run : ∀ start : List Term,
      ts.foldlM (fun sums t => insertTerm t sums) start = .ok sums →
        sumAt sums x = sumAt ts x + sumAt start x := by
    clear collected
    induction ts with
    | nil =>
      intro start folded
      cases folded
      simp
    | cons t rest ih =>
      intro start folded
      rw [List.foldlM_cons] at folded
      obtain ⟨next, inserted, folded⟩ := ok_of_bind folded
      rw [ih next folded, sumAt_insertTerm x inserted, sumAt_cons]
      ring
  simpa using run [] collected

end Collecting

namespace Poly

/-! ## Polynomials -/

/-- **The value of a polynomial** at a real number. -/
noncomputable def realAt (p : Poly) (x : ℝ) : ℝ :=
  sumAt p.terms x

variable {p q r : Poly} {x : ℝ}

/-- Dropping the sums that vanish changes nothing. -/
theorem realAt_ofSums (symbol : String) (sums : List Term)
    (ascending : sums.Pairwise fun s t => s.power < t.power) (x : ℝ) :
    (ofSums symbol sums ascending).realAt x = sumAt sums x := by
  have filtered : sumAt (sums.filter fun t => t.coefficient.coefficient ≠ 0) x = sumAt sums x := by
    clear ascending
    induction sums with
    | nil => rfl
    | cons t rest ih =>
      by_cases zero : t.coefficient.coefficient = 0
      · have nothing : t.realAt x = 0 := by simp [Term.realAt, Radical.real, zero]
        rw [List.filter_cons_of_neg (by simpa using zero), ih, sumAt_cons, nothing, zero_add]
      · rw [List.filter_cons_of_pos (by simpa using zero), sumAt_cons, ih, sumAt_cons]
  show sumAt (sums.filter fun t => t.coefficient.coefficient ≠ 0).reverse x = sumAt sums x
  rw [← filtered, sumAt, List.map_reverse, List.sum_reverse]
  rfl

/-- **Collecting terms keeps the value.** -/
theorem realAt_ofTerms {symbol : String} {ts : List Term} (formed : ofTerms symbol ts = .ok p)
    (x : ℝ) : p.realAt x = sumAt ts x ∧ p.symbol = symbol := by
  obtain ⟨sums, collected, rfl⟩ := collect_of_ofTerms formed
  exact ⟨by rw [realAt_ofSums, sumAt_collect x collected], rfl⟩

theorem realAt_ofTerm (t : Term) (symbol : String) (x : ℝ) :
    (ofTerm t symbol).realAt x = t.realAt x := by
  rw [ofTerm, realAt_ofSums, sumAt_cons, sumAt_nil, add_zero]

@[simp]
theorem realAt_constant (c : Radical) (symbol : String) (x : ℝ) :
    (constant c symbol).realAt x = c.real := by
  rw [constant, realAt_ofTerm, Term.realAt_constant]

/-- A polynomial in which the variable does not occur has one value. -/
theorem realAt_of_isConstant (constant : p.isConstant = true) (x : ℝ) :
    p.realAt x = p.leadingCoefficient.real := by
  unfold isConstant at constant
  unfold realAt leadingCoefficient
  split at constant
  · rename_i empty
    rw [empty]
    show (0 : ℝ) = (Radical.ofRat 0).real
    rw [Radical.real_ofRat, Rat.cast_zero]
  · rename_i t single
    rw [single, sumAt_cons, sumAt_nil, add_zero, Term.realAt, of_decide_eq_true constant, Rat.cast_zero,
      Real.rpow_zero, mul_one]
    rfl
  · cases constant

/-! ## Arithmetic -/

/-- **The opposite.** -/
theorem realAt_neg (p : Poly) (x : ℝ) : p.neg.realAt x = -p.realAt x := by
  have opposite : ∀ t : Term, Term.realAt ⟨t.coefficient.neg, t.power⟩ x = -t.realAt x := by
    intro t
    unfold Term.realAt
    rw [Radical.real_neg, neg_mul]
  show sumAt (p.terms.map fun t => ⟨t.coefficient.neg, t.power⟩) x = -sumAt p.terms x
  induction p.terms with
  | nil => simp
  | cons t rest ih => rw [List.map_cons, sumAt_cons, ih, sumAt_cons, opposite, neg_add]

/-- **The sum.** -/
theorem realAt_add (sum : p.add q = .ok r) (x : ℝ) :
    r.realAt x = p.realAt x + q.realAt x ∧ p.commonSymbol q = .ok r.symbol := by
  obtain ⟨symbol, common, formed⟩ := ok_of_bind sum
  obtain ⟨value, rfl⟩ := realAt_ofTerms formed x
  exact ⟨by rw [value, sumAt_append]; rfl, common⟩

/-- **The difference.** -/
theorem realAt_sub (difference : p.sub q = .ok r) (x : ℝ) :
    r.realAt x = p.realAt x - q.realAt x ∧ p.commonSymbol q = .ok r.symbol := by
  obtain ⟨value, common⟩ := realAt_add difference x
  exact ⟨by rw [value, realAt_neg, sub_eq_add_neg], common⟩

theorem realAt_mulTerm {s t u : Term} (positive : 0 < x) (product : mulTerm s t = .ok u) :
    u.realAt x = s.realAt x * t.realAt x := by
  obtain ⟨c, multiplied, rfl⟩ := ok_of_map product
  unfold Term.realAt
  rw [Radical.real_mul multiplied, Rat.cast_add, Real.rpow_add positive]
  ring

/-- The products of pairs of terms add up to the products of their values. -/
theorem sumAt_products {pairs : List (Term × Term)} {ts : List Term} (positive : 0 < x)
    (each : List.Forall₂ (fun y t => mulTerm y.1 y.2 = .ok t) pairs ts) :
    sumAt ts x = (pairs.map fun y => y.1.realAt x * y.2.realAt x).sum := by
  induction each with
  | nil => rfl
  | cons here _ ih =>
    rw [sumAt_cons, List.map_cons, List.sum_cons, ih, realAt_mulTerm positive here]

/-- **The product.** -/
theorem realAt_mul (positive : 0 < x) (product : p.mul q = .ok r) :
    r.realAt x = p.realAt x * q.realAt x ∧ p.commonSymbol q = .ok r.symbol := by
  obtain ⟨symbol, common, run⟩ := ok_of_bind product
  obtain ⟨ts, multiplied, formed⟩ := ok_of_bind run
  obtain ⟨value, rfl⟩ := realAt_ofTerms formed x
  refine ⟨?_, common⟩
  rw [value, sumAt_products positive (forall₂_of_mapM multiplied), sum_pairs (·.realAt x)]
  rfl

theorem realAt_divideTerm {s t u : Term} (positive : 0 < x) (quotient : divideTerm s t = .ok u) :
    u.realAt x = s.realAt x / t.realAt x := by
  obtain ⟨c, divided, rfl⟩ := ok_of_map quotient
  unfold Term.realAt
  rw [(Radical.real_div divided).2, Rat.cast_sub, Real.rpow_sub positive, mul_div_mul_comm]

/-- The quotients by one term add up to the quotient of the sum. -/
theorem sumAt_quotients {ss ts : List Term} {d : Term} (positive : 0 < x)
    (each : List.Forall₂ (fun s t => divideTerm s d = .ok t) ss ts) :
    sumAt ts x = sumAt ss x / d.realAt x := by
  induction each with
  | nil => simp
  | cons here _ ih =>
    rw [sumAt_cons, ih, sumAt_cons, realAt_divideTerm positive here, add_div]

/-- A single term does not vanish at a positive number. -/
theorem realAt_ne_zero {t : Term} (nonzero : t.coefficient.coefficient ≠ 0) (positive : 0 < x) :
    t.realAt x ≠ 0 :=
  mul_ne_zero (mul_ne_zero (Rat.cast_ne_zero.mpr nonzero) t.coefficient.sqrt_radicand_pos.ne')
    (Real.rpow_pos_of_pos positive _).ne'

/-- **The quotient.** A divisor is a single term, so it does not vanish. -/
theorem realAt_divide (positive : 0 < x) (quotient : p.divide q = .ok r) :
    q.realAt x ≠ 0 ∧ r.realAt x = p.realAt x / q.realAt x ∧ p.commonSymbol q = .ok r.symbol := by
  unfold divide at quotient
  split at quotient
  · cases quotient
  · rename_i d single
    obtain ⟨symbol, common, run⟩ := ok_of_bind quotient
    obtain ⟨ts, divided, formed⟩ := ok_of_bind run
    obtain ⟨value, rfl⟩ := realAt_ofTerms formed x
    have divisor : q.realAt x = d.realAt x := by
      rw [realAt, single, sumAt_cons, sumAt_nil, add_zero]
    have nonzero : d.coefficient.coefficient ≠ 0 :=
      q.nonzero d (by rw [single]; exact List.mem_singleton_self d)
    refine ⟨?_, ?_, common⟩
    · rw [divisor]
      exact realAt_ne_zero nonzero positive
    · rw [value, sumAt_quotients positive (forall₂_of_mapM divided), divisor]
      rfl
  · cases quotient

/-- **A natural power.** -/
theorem realAt_natPow {n : Nat} (positive : 0 < x) (power : p.natPow n = .ok r) :
    r.realAt x = p.realAt x ^ n ∧ r.symbol = p.symbol := by
  -- the product so far grows by one factor at a time
  have run : ∀ (n : Nat) (product : Poly), product.symbol = p.symbol →
      mulPow product p n = .ok r →
        r.realAt x = product.realAt x * p.realAt x ^ n ∧ r.symbol = p.symbol := by
    intro n
    induction n with
    | zero =>
      intro product named multiplied
      cases multiplied
      exact ⟨by rw [pow_zero, mul_one], named⟩
    | succ n ih =>
      intro product named multiplied
      obtain ⟨next, step, multiplied⟩ := ok_of_bind multiplied
      obtain ⟨value, common⟩ := realAt_mul positive step
      have same : next.symbol = p.symbol := by
        rw [commonSymbol_eq (.inr (.inr named)), named, ite_self] at common
        exact (Except.ok.inj common).symm
      obtain ⟨total, last⟩ := ih next same multiplied
      exact ⟨by rw [total, value, pow_succ]; ring, last⟩
  obtain ⟨value, named⟩ := run n (constant (.ofRat 1) p.symbol) rfl power
  refine ⟨?_, named⟩
  rw [value, realAt_constant, Radical.real_ofRat, Rat.cast_one, one_mul]

/-! ## Rational powers -/

theorem isPower_raiseConstant {c d : Radical} {e : ℚ} (power : raiseConstant c e = .ok d) :
    IsPower c.real e d.real := by
  unfold raiseConstant at power
  split at power
  · rename_i rational
    rw [Radical.eq_ofRat rational, Radical.real_ofRat]
    exact Radical.isPower_rationalPower power
  · exact Radical.isPower_pow power

theorem isPower_raiseCoefficient {c d : Radical} {e : ℚ} (power : raiseCoefficient c e = .ok d) :
    IsPower c.real e d.real := by
  unfold raiseCoefficient at power
  split at power
  · rename_i one
    cases power
    rw [one, Radical.real_ofRat, Rat.cast_one]
    exact .one e
  · split at power
    · rename_i whole
      exact Radical.isPower_intPow whole power
    · split at power
      · rename_i rational
        rw [Radical.eq_ofRat rational, Radical.real_ofRat]
        exact Radical.isPower_rationalPower power
      · cases power

/-- **A rational power** of a polynomial has the power of its value. -/
theorem isPower_raise {e : ℚ} (positive : 0 < x) (power : p.raise e = .ok r) :
    IsPower (p.realAt x) e (r.realAt x) ∧ r.symbol = p.symbol := by
  unfold raise at power
  split at power
  · rename_i none
    split at power
    · cases power
    · rename_i above
      cases power
      have zero : p.realAt x = 0 := by rw [realAt, none, sumAt_nil]
      rw [zero]
      exact ⟨.zero (not_le.mp above), rfl⟩
  · rename_i t single
    have value : p.realAt x = t.realAt x := by
      rw [realAt, single, sumAt_cons, sumAt_nil, add_zero]
    rw [value]
    split at power
    · rename_i constant
      obtain ⟨c, raised, rfl⟩ := ok_of_map power
      have number : t.realAt x = t.coefficient.real := by
        rw [Term.realAt, constant, Rat.cast_zero, Real.rpow_zero, mul_one]
      rw [number, realAt_constant]
      exact ⟨isPower_raiseConstant raised, rfl⟩
    · obtain ⟨c, raised, rfl⟩ := ok_of_map power
      rw [realAt_ofTerm]
      exact ⟨(isPower_raiseCoefficient raised).mul_rpow positive t.power, rfl⟩
  · split at power
    · cases power
    · rename_i natural
      obtain ⟨whole, nonneg⟩ := not_or.mp natural
      obtain ⟨value, named⟩ := realAt_natPow positive power
      have exponent : (e.num.natAbs : ℤ) = e.num :=
        Int.natAbs_of_nonneg (Rat.num_nonneg.mpr (not_lt.mp nonneg))
      rw [value, ← zpow_natCast, exponent]
      exact ⟨.of_zpow (not_not.mp whole) fun negative => absurd negative nonneg, named⟩

end Poly

end ExactAlgebra
