import ExactAlgebra.Proofs.Poly.Coefficients
import ExactAlgebra.Proofs.Poly.Single

/-!
# Polynomials with rational coefficients and natural powers

Factoring and solving work on the polynomials whose terms are `c · x ^ n` with a rational `c` and a
natural `n`. Those are polynomials over the rationals in the usual sense, and their arithmetic never
fails, apart from the names of the variables.

## Main statements

* `Term.isNatural_iff` — what such a term looks like;
* `ofTerms_natural`, `add_natural`, `mul_natural` — sums and products;
* `terms_eq_of_toPolynomial_eq` — the terms are determined by the polynomial;
* `dense_natural`, `toPolynomial_ofCoefficients` — to coefficient lists and back;
* `evaluate_natural` — values at rational points.

## Main definitions

* `Term.IsNatural`, `Poly.IsNatural` — rational coefficients, natural powers;
* `Term.toPolynomial`, `Poly.toPolynomial` — the polynomial over the rationals.
-/

namespace ExactAlgebra

open Polynomial

/-! ## Terms -/

namespace Term

/-- **A term with a rational coefficient and a natural power.** -/
def IsNatural (t : Term) : Prop :=
  t.coefficient.isRational = true ∧ Poly.isNaturalPower t.power = true

/-- The term `c · x ^ n`. -/
def natural (c : ℚ) (n : Nat) : Term :=
  ⟨.ofRat c, n⟩

theorem isNatural_natural (c : ℚ) (n : Nat) : (natural c n).IsNatural :=
  ⟨rfl, by simp [natural, Poly.isNaturalPower]⟩

theorem isNatural_iff (t : Term) : t.IsNatural ↔ ∃ c n, t = natural c n := by
  constructor
  · rintro ⟨rational, power⟩
    obtain ⟨nonneg, whole⟩ : 0 ≤ t.power ∧ t.power.den = 1 := by
      simpa [Poly.isNaturalPower] using power
    refine ⟨t.coefficient.coefficient, t.power.num.toNat, ?_⟩
    have exponent : ((t.power.num.toNat : ℕ) : ℚ) = t.power := by
      have natural := Int.toNat_of_nonneg (Rat.num_nonneg.mpr nonneg)
      have cast := congrArg (fun z : ℤ => (z : ℚ)) natural
      rw [Int.cast_natCast] at cast
      rw [cast]
      exact (Rat.den_eq_one_iff _).mp whole
    rw [natural, exponent, ← Radical.eq_ofRat rational]
  · rintro ⟨c, n, rfl⟩
    exact isNatural_natural c n

/-- The term with the opposite coefficient. -/
theorem neg_natural (c : ℚ) (n : Nat) :
    (⟨(natural c n).coefficient.neg, (natural c n).power⟩ : Term) = natural (-c) n := by
  simp [natural]

/-- **The term as a polynomial.** -/
noncomputable def toPolynomial (t : Term) : ℚ[X] :=
  monomial t.power.num.toNat t.coefficient.coefficient

@[simp]
theorem toPolynomial_natural (c : ℚ) (n : Nat) : (natural c n).toPolynomial = monomial n c := rfl

/-- The sum of some terms as polynomials. -/
noncomputable def sum (ts : List Term) : ℚ[X] :=
  (ts.map toPolynomial).sum

@[simp]
theorem sum_nil : sum [] = 0 := rfl

@[simp]
theorem sum_cons (t : Term) (ts : List Term) : sum (t :: ts) = t.toPolynomial + sum ts :=
  List.sum_cons

theorem sum_append (ss ts : List Term) : sum (ss ++ ts) = sum ss + sum ts := by
  rw [sum, List.map_append, List.sum_append, sum, sum]

end Term

/-! ## Collecting terms -/

theorem insertTerm_natural {t : Term} {sums : List Term} (natural : t.IsNatural)
    (naturals : ∀ s ∈ sums, s.IsNatural) :
    ∃ result, insertTerm t sums = .ok result ∧ (∀ s ∈ result, s.IsNatural) ∧
      Term.sum result = t.toPolynomial + Term.sum sums := by
  induction sums with
  | nil => exact ⟨[t], rfl, by simpa using natural, by simp⟩
  | cons s rest ih =>
    obtain ⟨here, there⟩ := List.forall_mem_cons.mp naturals
    rw [insertTerm]
    split
    · exact ⟨_, rfl, List.forall_mem_cons.mpr ⟨natural, naturals⟩, by simp⟩
    · split
      · -- the power is there already, and the coefficients are added
        obtain ⟨c, n, rfl⟩ := t.isNatural_iff.mp natural
        obtain ⟨d, m, rfl⟩ := s.isNatural_iff.mp here
        rename_i same
        obtain rfl : n = m := Nat.cast_injective same
        refine ⟨Term.natural (d + c) n :: rest, ?_, ?_, ?_⟩
        · rw [Term.natural, Term.natural, Radical.add_ofRat]
          rfl
        · exact List.forall_mem_cons.mpr ⟨Term.isNatural_natural _ n, there⟩
        · rw [Term.sum_cons, Term.sum_cons, Term.toPolynomial_natural, Term.toPolynomial_natural,
            Term.toPolynomial_natural, map_add]
          ring
      · obtain ⟨result, inserted, all, value⟩ := ih there
        refine ⟨s :: result, by rw [inserted]; rfl, List.forall_mem_cons.mpr ⟨here, all⟩, ?_⟩
        rw [Term.sum_cons, value, Term.sum_cons]
        ring

theorem collect_natural {ts : List Term} (naturals : ∀ t ∈ ts, t.IsNatural) :
    ∃ sums, collect ts = .ok sums ∧ (∀ s ∈ sums, s.IsNatural) ∧ Term.sum sums = Term.sum ts := by
  -- the fold goes on from any sums that have been collected
  have run : ∀ sums : List Term, (∀ s ∈ sums, s.IsNatural) →
      ∃ result, ts.foldlM (fun sums t => insertTerm t sums) sums = .ok result ∧
        (∀ s ∈ result, s.IsNatural) ∧ Term.sum result = Term.sum ts + Term.sum sums := by
    induction ts with
    | nil => exact fun sums all => ⟨sums, rfl, all, by simp⟩
    | cons t rest ih =>
      intro sums all
      obtain ⟨here, there⟩ := List.forall_mem_cons.mp naturals
      obtain ⟨next, inserted, allNext, valueNext⟩ := insertTerm_natural here all
      obtain ⟨result, folded, allResult, value⟩ := ih there next allNext
      refine ⟨result, ?_, allResult, ?_⟩
      · rw [List.foldlM_cons, inserted]
        exact folded
      · rw [value, valueNext, Term.sum_cons]
        ring
  obtain ⟨sums, collected, all, value⟩ := run [] (by simp)
  exact ⟨sums, collected, all, by simpa using value⟩

namespace Poly

/-! ## Polynomials -/

/-- **Rational coefficients and natural powers.** -/
def IsNatural (p : Poly) : Prop :=
  ∀ t ∈ p.terms, t.IsNatural

theorem isNatural_iff (p : Poly) :
    p.IsNatural ↔ p.hasRationalCoefficients = true ∧ p.hasNaturalPowers = true := by
  simp only [hasRationalCoefficients, hasNaturalPowers, List.all_eq_true]
  exact ⟨fun h => ⟨fun t mem => (h t mem).1, fun t mem => (h t mem).2⟩,
    fun h t mem => ⟨h.1 t mem, h.2 t mem⟩⟩

/-- **The polynomial over the rationals.** -/
noncomputable def toPolynomial (p : Poly) : ℚ[X] :=
  Term.sum p.terms

/-- Dropping the sums that vanish changes nothing. -/
theorem toPolynomial_ofSums (symbol : String) (sums : List Term)
    (ascending : sums.Pairwise fun s t => s.power < t.power) :
    (ofSums symbol sums ascending).toPolynomial = Term.sum sums := by
  have filtered : Term.sum (sums.filter fun t => t.coefficient.coefficient ≠ 0) = Term.sum sums := by
    clear ascending
    induction sums with
    | nil => rfl
    | cons t rest ih =>
      by_cases zero : t.coefficient.coefficient = 0
      · rw [List.filter_cons_of_neg (by simpa using zero), ih, Term.sum_cons, Term.toPolynomial, zero,
          monomial_zero_right, zero_add]
      · rw [List.filter_cons_of_pos (by simpa using zero), Term.sum_cons, ih, Term.sum_cons]
  rw [toPolynomial, ofSums, Term.sum, List.map_reverse, List.sum_reverse]
  exact filtered

theorem isNatural_ofSums {symbol : String} {sums : List Term}
    {ascending : sums.Pairwise fun s t => s.power < t.power} (naturals : ∀ s ∈ sums, s.IsNatural) :
    (ofSums symbol sums ascending).IsNatural := by
  intro t mem
  exact naturals t (List.mem_of_mem_filter (List.mem_reverse.mp mem))

/-- **Sums of natural terms never fail.** -/
theorem ofTerms_natural (symbol : String) {ts : List Term} (naturals : ∀ t ∈ ts, t.IsNatural) :
    ∃ p, ofTerms symbol ts = .ok p ∧ p.IsNatural ∧ p.symbol = symbol ∧
      p.toPolynomial = Term.sum ts := by
  obtain ⟨sums, collected, all, value⟩ := collect_natural naturals
  exact ⟨_, ofTerms_eq collected symbol, isNatural_ofSums all, rfl,
    by rw [toPolynomial_ofSums, value]⟩

theorem toPolynomial_ofTerm_natural (c : ℚ) (n : Nat) (symbol : String) :
    (ofTerm (Term.natural c n) symbol).toPolynomial = monomial n c := by
  rw [ofTerm, toPolynomial_ofSums]
  simp

theorem isNatural_ofTerm_natural (c : ℚ) (n : Nat) (symbol : String) :
    (ofTerm (Term.natural c n) symbol).IsNatural :=
  isNatural_ofSums (by simpa using Term.isNatural_natural c n)

/-! ## Arithmetic -/

theorem mulTerm_natural (c d : ℚ) (n m : Nat) :
    mulTerm (Term.natural c n) (Term.natural d m) = .ok (Term.natural (c * d) (n + m)) := by
  rw [mulTerm, Term.natural, Term.natural, Radical.mul_ofRat]
  simp [Except.map, Term.natural]

/-- The products of the pairs of a list. -/
theorem mapM_mulTerm_natural (pairs : List (Term × Term))
    (naturals : ∀ s t, (s, t) ∈ pairs → s.IsNatural ∧ t.IsNatural) :
    ∃ ts, pairs.mapM (fun (s, t) => mulTerm s t) = .ok ts ∧ (∀ t ∈ ts, t.IsNatural) ∧
      Term.sum ts = (pairs.map fun x => x.1.toPolynomial * x.2.toPolynomial).sum := by
  induction pairs with
  | nil => exact ⟨[], rfl, by simp, rfl⟩
  | cons pair rest ih =>
    obtain ⟨s, t⟩ := pair
    obtain ⟨ts, multiplied, all, value⟩ :=
      ih fun s t mem => naturals s t (List.mem_cons_of_mem _ mem)
    obtain ⟨hs, ht⟩ := naturals s t List.mem_cons_self
    obtain ⟨c, n, rfl⟩ := s.isNatural_iff.mp hs
    obtain ⟨d, m, rfl⟩ := t.isNatural_iff.mp ht
    refine ⟨Term.natural (c * d) (n + m) :: ts, ?_, ?_, ?_⟩
    · simp only [List.mapM_cons, mulTerm_natural, multiplied, bind, Except.bind]
      rfl
    · exact List.forall_mem_cons.mpr ⟨Term.isNatural_natural _ _, all⟩
    · rw [Term.sum_cons, value, List.map_cons, List.sum_cons, Term.toPolynomial_natural,
        Term.toPolynomial_natural, Term.toPolynomial_natural, monomial_mul_monomial]

section Arithmetic

variable {p q : Poly} (hp : p.IsNatural) (hq : q.IsNatural)
  (compatible : p.symbol = "" ∨ q.symbol = "" ∨ p.symbol = q.symbol)

include hp in
/-- **The opposite.** -/
theorem neg_natural : p.neg.IsNatural ∧ p.neg.toPolynomial = -p.toPolynomial := by
  have all : ∀ ts : List Term, (∀ t ∈ ts, t.IsNatural) →
      (∀ s ∈ ts.map fun t => (⟨t.coefficient.neg, t.power⟩ : Term), s.IsNatural) ∧
        Term.sum (ts.map fun t => (⟨t.coefficient.neg, t.power⟩ : Term)) = -Term.sum ts := by
    intro ts naturals
    induction ts with
    | nil => simp
    | cons t rest ih =>
      obtain ⟨here, there⟩ := List.forall_mem_cons.mp naturals
      obtain ⟨c, n, rfl⟩ := t.isNatural_iff.mp here
      rw [List.map_cons, Term.neg_natural]
      obtain ⟨natural, value⟩ := ih there
      refine ⟨List.forall_mem_cons.mpr ⟨Term.isNatural_natural _ n, natural⟩, ?_⟩
      rw [Term.sum_cons, value, Term.sum_cons, Term.toPolynomial_natural, Term.toPolynomial_natural,
        map_neg, neg_add]
  exact all p.terms hp

include hp hq compatible

/-- **The sum.** -/
theorem add_natural :
    ∃ r, p.add q = .ok r ∧ r.IsNatural ∧ r.symbol = (if p.symbol = "" then q.symbol else p.symbol) ∧
      r.toPolynomial = p.toPolynomial + q.toPolynomial := by
  have naturals : ∀ t ∈ p.terms ++ q.terms, t.IsNatural := by
    intro t mem
    exact (List.mem_append.mp mem).elim (hp t) (hq t)
  obtain ⟨r, formed, natural, symbol, value⟩ :=
    ofTerms_natural (if p.symbol = "" then q.symbol else p.symbol) naturals
  refine ⟨r, ?_, natural, symbol, by rw [value, Term.sum_append]; rfl⟩
  rw [add, commonSymbol_eq compatible]
  exact formed

omit compatible in
theorem products_natural :
    ∃ ts, products p.terms q.terms = .ok ts ∧ (∀ t ∈ ts, t.IsNatural) ∧
      Term.sum ts = p.toPolynomial * q.toPolynomial := by
  obtain ⟨ts, multiplied, naturals, value⟩ := mapM_mulTerm_natural
    (p.terms.flatMap fun s => q.terms.map fun t => (s, t)) <| by
      intro s t mem
      obtain ⟨s', left, mem⟩ := List.mem_flatMap.mp mem
      obtain ⟨t', right, same⟩ := List.mem_map.mp mem
      obtain ⟨rfl, rfl⟩ := Prod.mk.inj same
      exact ⟨hp _ left, hq _ right⟩
  refine ⟨ts, multiplied, naturals, ?_⟩
  rw [value]
  exact sum_pairs Term.toPolynomial p.terms q.terms

/-- **The product.** -/
theorem mul_natural :
    ∃ r, p.mul q = .ok r ∧ r.IsNatural ∧ r.symbol = (if p.symbol = "" then q.symbol else p.symbol) ∧
      r.toPolynomial = p.toPolynomial * q.toPolynomial := by
  obtain ⟨ts, multiplied, naturals, sum⟩ := products_natural hp hq
  obtain ⟨r, formed, natural, symbol, value⟩ :=
    ofTerms_natural (if p.symbol = "" then q.symbol else p.symbol) naturals
  refine ⟨r, ?_, natural, symbol, value.trans sum⟩
  rw [mul, commonSymbol_eq compatible]
  simp only [bind, Except.bind, multiplied]
  exact formed

end Arithmetic

/-! ## Division by a number -/

theorem terms_constant {c : ℚ} (nonzero : c ≠ 0) (symbol : String) :
    (constant (.ofRat c) symbol).terms = [Term.natural c 0] := by
  exact terms_ofTerm (t := ⟨.ofRat c, 0⟩) nonzero symbol

theorem divideTerm_natural (c : ℚ) (n : Nat) {d : ℚ} (nonzero : d ≠ 0) :
    divideTerm (Term.natural c n) (Term.natural d 0) = .ok (Term.natural (c / d) n) := by
  rw [divideTerm, Term.natural, Term.natural, Radical.div_ofRat c nonzero]
  simp [Except.map, Term.natural]

theorem mapM_divideTerm_natural {d : ℚ} (nonzero : d ≠ 0) {ts : List Term}
    (naturals : ∀ t ∈ ts, t.IsNatural) :
    ∃ quotients, ts.mapM (divideTerm · (Term.natural d 0)) = .ok quotients ∧
      (∀ t ∈ quotients, t.IsNatural) ∧ Term.sum quotients = C d⁻¹ * Term.sum ts := by
  induction ts with
  | nil => exact ⟨[], rfl, by simp, by simp⟩
  | cons t rest ih =>
    obtain ⟨here, there⟩ := List.forall_mem_cons.mp naturals
    obtain ⟨c, n, rfl⟩ := t.isNatural_iff.mp here
    obtain ⟨quotients, divided, all, value⟩ := ih there
    refine ⟨Term.natural (c / d) n :: quotients, ?_, ?_, ?_⟩
    · simp only [List.mapM_cons, divideTerm_natural c n nonzero, divided, bind, Except.bind]
      rfl
    · exact List.forall_mem_cons.mpr ⟨Term.isNatural_natural _ _, all⟩
    · rw [Term.sum_cons, value, Term.sum_cons, Term.toPolynomial_natural, Term.toPolynomial_natural,
        mul_add, C_mul_monomial, div_eq_inv_mul]

/-- **The quotient by a number** other than zero. -/
theorem divide_natural {p : Poly} (natural : p.IsNatural) {d : ℚ} (nonzero : d ≠ 0) :
    ∃ r, p.divide (constant (.ofRat d) "") = .ok r ∧ r.IsNatural ∧ r.symbol = p.symbol ∧
      r.toPolynomial = C d⁻¹ * p.toPolynomial := by
  obtain ⟨quotients, divided, naturals, sum⟩ := mapM_divideTerm_natural nonzero natural
  obtain ⟨r, formed, isNatural, symbol, value⟩ := ofTerms_natural p.symbol naturals
  refine ⟨r, ?_, isNatural, symbol, value.trans sum⟩
  have common : p.commonSymbol (constant (.ofRat d) "") = .ok p.symbol := by
    rw [commonSymbol_eq (.inr (.inl rfl))]
    split
    · rename_i none
      exact congrArg Except.ok none.symm
    · rfl
  rw [divide, terms_constant nonzero]
  simp only [common, divided, bind, Except.bind]
  exact formed

/-! ## The terms are determined -/

theorem mem_iff_coeff {ts : List Term} (naturals : ∀ t ∈ ts, t.IsNatural)
    (descending : ts.Pairwise fun s t => t.power < s.power)
    (nonzero : ∀ t ∈ ts, t.coefficient.coefficient ≠ 0) (c : ℚ) (n : Nat) :
    Term.natural c n ∈ ts ↔ c ≠ 0 ∧ (Term.sum ts).coeff n = c := by
  induction ts generalizing c n with
  | nil => simp [eq_comm]
  | cons t rest ih =>
    obtain ⟨here, there⟩ := List.forall_mem_cons.mp naturals
    obtain ⟨below, descending⟩ := List.pairwise_cons.mp descending
    obtain ⟨first, nonzero⟩ := List.forall_mem_cons.mp nonzero
    have ih := ih there descending nonzero
    obtain ⟨d, m, rfl⟩ := t.isNatural_iff.mp here
    rw [List.mem_cons, Term.sum_cons, Term.toPolynomial_natural, coeff_add, coeff_monomial]
    by_cases same : m = n
    · subst same
      -- the rest has no term of this power
      have absent : ∀ e, Term.natural e m ∉ rest := fun e mem =>
        lt_irrefl (m : ℚ) (below (Term.natural e m) mem)
      have zero : (Term.sum rest).coeff m = 0 := by
        by_contra some
        exact absent _ ((ih _ m).mpr ⟨some, rfl⟩)
      rw [if_pos rfl, zero, add_zero, or_iff_left (absent c)]
      constructor
      · intro equal
        obtain rfl : c = d := by simpa [Term.natural, Radical.ofRat] using equal
        exact ⟨first, rfl⟩
      · rintro ⟨_, rfl⟩
        rfl
    · rw [if_neg same, zero_add, ih, or_iff_right]
      intro equal
      have power : (n : ℚ) = m := congrArg Term.power equal
      exact same (Nat.cast_injective power).symm

/-- **The terms are determined by the polynomial.** -/
theorem terms_eq_of_toPolynomial_eq {p q : Poly} (hp : p.IsNatural) (hq : q.IsNatural)
    (same : p.toPolynomial = q.toPolynomial) : p.terms = q.terms := by
  have members : ∀ t, t ∈ p.terms ↔ t ∈ q.terms := by
    intro t
    by_cases natural : t.IsNatural
    · obtain ⟨c, n, rfl⟩ := t.isNatural_iff.mp natural
      rw [mem_iff_coeff hp p.descending p.nonzero, mem_iff_coeff hq q.descending q.nonzero]
      exact iff_of_eq (by rw [← toPolynomial, same, toPolynomial])
    · exact iff_of_false (fun mem => natural (hp t mem)) fun mem => natural (hq t mem)
  exact terms_eq_of_mem_iff members

/-! ## Coefficient lists -/

open ExactAlgebra.Dense

/-- The coefficients from a power on, of terms up to that power. -/
theorem polynomialOf_fillDown {ts : List Term} (naturals : ∀ t ∈ ts, t.IsNatural)
    (descending : ts.Pairwise fun s t => t.power < s.power) (n : Nat)
    (upTo : ∀ t ∈ ts, t.power ≤ n) :
    polynomialOf (fillDown n ts) = Term.sum ts ∧ (fillDown n ts).length = n + 1 := by
  induction n generalizing ts with
  | zero =>
    cases ts with
    | nil => simp [fillDown]
    | cons t rest =>
      obtain ⟨here, there⟩ := List.forall_mem_cons.mp naturals
      obtain ⟨below, -⟩ := List.pairwise_cons.mp descending
      obtain ⟨c, m, rfl⟩ := t.isNatural_iff.mp here
      have constant : (m : ℚ) ≤ (0 : ℕ) := (List.forall_mem_cons.mp upTo).1
      obtain rfl : m = 0 := Nat.le_zero.mp (Nat.cast_le.mp constant)
      -- no term has a negative power
      have none : rest = [] := by
        refine List.eq_nil_iff_forall_not_mem.mpr fun t mem => ?_
        obtain ⟨d, k, rfl⟩ := t.isNatural_iff.mp (there t mem)
        have negative : (k : ℚ) < (0 : ℕ) := below _ mem
        exact absurd (Nat.cast_lt.mp negative) (Nat.not_lt_zero k)
      subst none
      simp [fillDown, Term.natural, Radical.ofRat, Term.toPolynomial]
  | succ n ih =>
    cases ts with
    | nil =>
      rw [fillDown]
      exact ⟨polynomialOf_replicate_zero _, List.length_replicate⟩
    | cons t rest =>
      obtain ⟨here, there⟩ := List.forall_mem_cons.mp naturals
      obtain ⟨below, descending'⟩ := List.pairwise_cons.mp descending
      obtain ⟨top, upTo'⟩ := List.forall_mem_cons.mp upTo
      obtain ⟨c, m, rfl⟩ := t.isNatural_iff.mp here
      -- a natural power below one is at most its predecessor
      have lower : ∀ s : Term, s.IsNatural → s.power < (n + 1 : ℕ) → s.power ≤ n := by
        intro s natural less
        obtain ⟨d, k, rfl⟩ := s.isNatural_iff.mp natural
        exact Nat.cast_le.mpr (Nat.lt_succ_iff.mp (Nat.cast_lt.mp less))
      rw [fillDown]
      split
      · rename_i equal
        obtain rfl : m = n + 1 := Nat.cast_injective equal
        obtain ⟨value, length⟩ := ih there descending' fun s mem => lower s (there s mem) (below s mem)
        refine ⟨?_, by rw [List.length_cons, length]⟩
        rw [polynomialOf_cons, value, length, Term.sum_cons, Term.toPolynomial_natural,
          ← C_mul_X_pow_eq_monomial]
        rfl
      · rename_i apart
        have less := lower _ here (lt_of_le_of_ne top apart)
        obtain ⟨value, length⟩ := ih naturals descending <|
          List.forall_mem_cons.mpr ⟨less, fun s mem => (below s mem).le.trans less⟩
        refine ⟨?_, by rw [List.length_cons, length]⟩
        rw [polynomialOf_cons, value, C_0, zero_mul, zero_add]

/-- Just the zero polynomial has no degree. -/
theorem isZero_iff (p : Poly) : p.isZero = true ↔ p.degree? = none := by
  rw [isZero, degree?]
  cases p.terms <;> simp

/-- **The coefficients of a natural polynomial.** -/
theorem dense_natural {p : Poly} (natural : p.IsNatural) :
    ∃ cs, p.dense = .ok cs ∧ polynomialOf cs = p.toPolynomial ∧
      (cs = [] ∧ p.degree? = none ∨
        HasLeading cs ∧ p.degree? = some ((cs.length - 1 : ℕ) : ℚ)) := by
  obtain ⟨rational, powers⟩ := p.isNatural_iff.mp natural
  rw [dense, rational, powers]
  simp only [Bool.not_true, Bool.false_eq_true, if_false]
  have descending := p.descending
  have nonzero := p.nonzero
  rw [toPolynomial, degree?]
  unfold IsNatural at natural
  generalize p.terms = ts at natural descending nonzero ⊢
  cases ts with
  | nil => exact ⟨[], rfl, rfl, .inl ⟨rfl, rfl⟩⟩
  | cons t rest =>
    obtain ⟨here, -⟩ := List.forall_mem_cons.mp natural
    obtain ⟨below, -⟩ := List.pairwise_cons.mp descending
    have first := (List.forall_mem_cons.mp nonzero).1
    obtain ⟨c, n, rfl⟩ := t.isNatural_iff.mp here
    have upTo : ∀ t ∈ Term.natural c n :: rest, t.power ≤ n :=
      List.forall_mem_cons.mpr ⟨le_rfl, fun s mem => (below s mem).le⟩
    obtain ⟨value, length⟩ := polynomialOf_fillDown natural descending n upTo
    refine ⟨_, rfl, value, .inr ⟨?_, ?_⟩⟩
    · cases n with
      | zero => exact hasLeading_cons first []
      | succ n =>
        have top : (Term.natural c (n + 1)).power = ((n + 1 : ℕ) : ℚ) := rfl
        show HasLeading (fillDown (n + 1) (Term.natural c (n + 1) :: rest))
        rw [fillDown, if_pos top]
        exact hasLeading_cons first _
    · show some (n : ℚ) = some (((fillDown n (Term.natural c n :: rest)).length - 1 : ℕ) : ℚ)
      rw [length, Nat.add_sub_cancel]

/-- **The value at a rational point** is that of the polynomial over the rationals. -/
theorem evaluate_natural {p : Poly} (natural : p.IsNatural) (t : ℚ) :
    p.evaluate t = .ok (p.toPolynomial.eval t) := by
  obtain ⟨cs, found, value, -⟩ := dense_natural natural
  rw [evaluate, found, ← value, eval_polynomialOf]
  rfl

theorem sum_risingTerms (n : Nat) (cs : List ℚ) :
    Term.sum (risingTerms n cs) = polynomialOf cs.reverse * X ^ n ∧
      ∀ t ∈ risingTerms n cs, t.IsNatural := by
  induction cs generalizing n with
  | nil => simp [risingTerms]
  | cons c rest ih =>
    obtain ⟨value, naturals⟩ := ih (n + 1)
    have first : (⟨.ofRat c, (n : ℚ)⟩ : Term) = Term.natural c n := rfl
    rw [risingTerms, first, List.reverse_cons, polynomialOf_append, Term.sum_cons, value,
      polynomialOf_singleton, Term.toPolynomial_natural, ← C_mul_X_pow_eq_monomial]
    refine ⟨?_, List.forall_mem_cons.mpr ⟨Term.isNatural_natural c n, naturals⟩⟩
    simp only [List.length_singleton]
    ring

/-- **A polynomial with given coefficients.** -/
theorem toPolynomial_ofCoefficients (cs : List ℚ) (symbol : String) :
    (ofCoefficients cs symbol).toPolynomial = polynomialOf cs := by
  rw [ofCoefficients, toPolynomial_ofSums, (sum_risingTerms 0 _).1, List.reverse_reverse, pow_zero,
    mul_one]

theorem isNatural_ofCoefficients (cs : List ℚ) (symbol : String) :
    (ofCoefficients cs symbol).IsNatural :=
  isNatural_ofSums (sum_risingTerms 0 _).2

/-- The value of a polynomial with given coefficients. -/
theorem evaluate_ofCoefficients (cs : List ℚ) (symbol : String) (t : ℚ) :
    (ofCoefficients cs symbol).evaluate t = .ok (horner cs t) := by
  rw [evaluate_natural (isNatural_ofCoefficients cs symbol), toPolynomial_ofCoefficients,
    eval_polynomialOf]

end Poly

end ExactAlgebra
