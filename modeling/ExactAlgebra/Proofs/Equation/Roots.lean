import ExactAlgebra.Proofs.Equation.Quadratic
import ExactAlgebra.Proofs.Poly.Natural

/-!
# The roots of a polynomial

The roots that are written down are real numbers, and their linear factors divide the polynomial over
the reals; the quotient has one degree for each marker. That is a property of lists of roots and
polynomials which is kept when lists are joined and polynomials multiplied, so it is enough to know
it of a single factor.

## Main statements

* `Accounts.append`, `Accounts.length_eq` — products, and the number of roots;
* `Accounts.isRoot`, `Accounts.count_le`, `Accounts.eq_prod` — what it says about single roots;
* `accounts_factorRoots` — the roots of one factor;
* `Poly.allRoots_account` — the roots of a polynomial.

## Main definitions

* `Root.real?`, `Root.reals` — the real numbers that are written down;
* `Root.Accounts` — the roots account for a polynomial.
-/

namespace ExactAlgebra

open Polynomial

namespace Root

/-- **The real number that a root denotes**, if it is written down. -/
noncomputable def real? : Root → Option ℝ
  | rational q => some q
  | surd base offset => some (base + offset.real)
  | unsolvable => none

/-- **The real numbers among the roots**, repetitions kept. -/
noncomputable def reals (roots : List Root) : List ℝ :=
  roots.filterMap real?

@[simp]
theorem reals_nil : reals [] = [] := rfl

@[simp]
theorem reals_rational (q : ℚ) (rest : List Root) :
    reals (rational q :: rest) = (q : ℝ) :: reals rest := rfl

@[simp]
theorem reals_surd (base : ℚ) (offset : Radical) (rest : List Root) :
    reals (surd base offset :: rest) = (base + offset.real : ℝ) :: reals rest := rfl

@[simp]
theorem reals_unsolvable (rest : List Root) : reals (unsolvable :: rest) = reals rest := rfl

/-- The product of the linear factors of the roots that are written down. -/
noncomputable def linearFactors (roots : List Root) : ℝ[X] :=
  ((reals roots).map fun r => X - C r).prod

/-- **The roots account for a polynomial**: their linear factors divide it, and the quotient has one
degree for each marker. -/
def Accounts (roots : List Root) (P : ℝ[X]) : Prop :=
  ∃ Q : ℝ[X], Q ≠ 0 ∧ P = linearFactors roots * Q ∧ Q.natDegree = roots.count .unsolvable

theorem linearFactors_append (front rest : List Root) :
    linearFactors (front ++ rest) = linearFactors front * linearFactors rest := by
  rw [linearFactors, reals, List.filterMap_append, List.map_append, List.prod_append]
  rfl

/-- The linear factors as a product over a multiset. -/
theorem linearFactors_eq (roots : List Root) :
    linearFactors roots = (Multiset.map (fun r => X - C r) (reals roots : Multiset ℝ)).prod := by
  rw [Multiset.map_coe, Multiset.prod_coe, linearFactors]

theorem monic_linearFactors (roots : List Root) : (linearFactors roots).Monic := by
  rw [linearFactors_eq]
  exact monic_multiset_prod_of_monic _ _ fun r _ => monic_X_sub_C r

theorem natDegree_linearFactors (roots : List Root) :
    (linearFactors roots).natDegree = (reals roots).length := by
  rw [linearFactors_eq, natDegree_multiset_prod_X_sub_C_eq_card, Multiset.coe_card]

/-- A root is written down, or it is a marker. -/
theorem length_reals_add_count (roots : List Root) :
    (reals roots).length + roots.count .unsolvable = roots.length := by
  induction roots with
  | nil => rfl
  | cons root rest ih =>
    cases root <;> simp <;> omega

namespace Accounts

variable {roots : List Root} {P : ℝ[X]}

/-- **Lists are joined, polynomials multiplied.** -/
theorem append {others : List Root} {R : ℝ[X]} (left : Accounts roots P) (right : Accounts others R) :
    Accounts (roots ++ others) (P * R) := by
  obtain ⟨Q, nonzero, rfl, degree⟩ := left
  obtain ⟨S, nonzero', rfl, degree'⟩ := right
  refine ⟨Q * S, mul_ne_zero nonzero nonzero', ?_, ?_⟩
  · rw [linearFactors_append]
    ring
  · rw [natDegree_mul nonzero nonzero', degree, degree', List.count_append]

theorem ne_zero (account : Accounts roots P) : P ≠ 0 := by
  obtain ⟨Q, nonzero, rfl, -⟩ := account
  exact mul_ne_zero (monic_linearFactors roots).ne_zero nonzero

/-- **There are as many roots as the degree says.** -/
theorem length_eq (account : Accounts roots P) : roots.length = P.natDegree := by
  obtain ⟨Q, nonzero, rfl, degree⟩ := account
  rw [natDegree_mul (monic_linearFactors roots).ne_zero nonzero, natDegree_linearFactors, degree,
    length_reals_add_count]

theorem le_roots (account : Accounts roots P) : (reals roots : Multiset ℝ) ≤ P.roots := by
  rw [← Multiset.prod_X_sub_C_dvd_iff_le_roots account.ne_zero, ← linearFactors_eq]
  obtain ⟨Q, -, rfl, -⟩ := account
  exact dvd_mul_right _ Q

/-- **Every number that is written down is a root.** -/
theorem isRoot (account : Accounts roots P) {r : ℝ} (mem : r ∈ reals roots) : P.IsRoot r :=
  isRoot_of_mem_roots (Multiset.mem_of_le account.le_roots (Multiset.mem_coe.mpr mem))

/-- A rational number that is written down is a zero, if the polynomial is one over the rationals. -/
theorem eval_eq_zero {v : ℚ[X]} (account : Accounts roots (v.map (algebraMap ℚ ℝ))) {r : ℚ}
    (mem : .rational r ∈ roots) : v.eval r = 0 := by
  have root := account.isRoot (List.mem_filterMap.mpr ⟨.rational r, mem, rfl⟩)
  exact root.of_map (algebraMap ℚ ℝ).injective

/-- **None is written down more often than its multiplicity.** -/
theorem count_le (account : Accounts roots P) (r : ℝ) : (reals roots).count r ≤ P.rootMultiplicity r := by
  rw [← count_roots, ← Multiset.coe_count]
  exact Multiset.count_le_of_le r account.le_roots

/-- **Without a marker the polynomial is the product of the linear factors.** -/
theorem eq_prod (account : Accounts roots P) (solved : .unsolvable ∉ roots) :
    P = C P.leadingCoeff * linearFactors roots := by
  obtain ⟨Q, -, rfl, degree⟩ := account
  rw [List.count_eq_zero_of_not_mem solved] at degree
  have constant := eq_C_of_natDegree_eq_zero degree
  rw [leadingCoeff_monic_mul (monic_linearFactors roots), mul_comm, leadingCoeff, degree, ← constant]

/-- A polynomial of which no root is known. -/
theorem of_markers (nonzero : P ≠ 0) {n : Nat} (degree : P.natDegree = n) :
    Accounts (List.replicate n .unsolvable) P := by
  have none : ∀ n, reals (List.replicate n .unsolvable) = [] := by
    intro n
    induction n with
    | zero => rfl
    | succ n ih => rw [List.replicate_succ, reals_unsolvable, ih]
  exact ⟨P, nonzero, by simp [linearFactors, none], by simp [degree]⟩

/-- A polynomial that is a number times linear factors. -/
theorem of_linearFactors {c : ℝ} (nonzero : c ≠ 0) (solved : roots.count .unsolvable = 0)
    (product : P = C c * linearFactors roots) : Accounts roots P :=
  ⟨C c, C_ne_zero.mpr nonzero, by rw [product, mul_comm], by rw [natDegree_C, solved]⟩

end Accounts

end Root

namespace Dense

open Root

/-- The polynomial of a coefficient list over the reals. -/
noncomputable def realPolynomial (cs : List ℚ) : ℝ[X] :=
  (polynomialOf cs).map (algebraMap ℚ ℝ)

theorem HasLeading.realPolynomial_ne_zero {cs : List ℚ} (leading : HasLeading cs) :
    realPolynomial cs ≠ 0 :=
  (Polynomial.map_ne_zero_iff (algebraMap ℚ ℝ).injective).mpr leading.polynomialOf_ne_zero

theorem HasLeading.natDegree_realPolynomial {cs : List ℚ} (leading : HasLeading cs) :
    (realPolynomial cs).natDegree = cs.length - 1 := by
  rw [realPolynomial, natDegree_map, leading.length_eq, Nat.add_sub_cancel]

/-! ## The roots of one factor -/

theorem hasSeveralTerms_single (c : ℚ) (n : Nat) : hasSeveralTerms (single c n) = false := by
  rw [hasSeveralTerms, single, decide_eq_false_iff_not, not_lt, List.filter_cons]
  split <;> simp

@[simp]
theorem factorRoots_singleton (a : ℚ) : factorRoots [a] = [] := by
  unfold factorRoots
  split <;> rfl

/-- A power of the variable has the root zero, as often as the power says. -/
theorem factorRoots_single (c : ℚ) (n : Nat) : factorRoots (single c n) = List.replicate n (.rational 0) := by
  unfold factorRoots
  rw [hasSeveralTerms_single, if_neg Bool.false_ne_true, single, List.length_cons,
    List.length_replicate, Nat.add_sub_cancel]

@[simp]
theorem factorRoots_linear (r : ℚ) : factorRoots (linear r) = [.rational r] := by
  unfold factorRoots
  split
  · simp [linear]
  · rename_i one
    have zero : r = 0 := by
      by_contra nonzero
      exact one (by simp [linear, hasSeveralTerms, nonzero])
    simp [linear, zero]

/-- The root zero accounts for a power of the variable. -/
theorem accounts_single {a : ℚ} (nonzero : a ≠ 0) (n : Nat) :
    Accounts (List.replicate n (.rational 0)) (realPolynomial (single a n)) := by
  refine .of_linearFactors (c := a) (Rat.cast_ne_zero.mpr nonzero) (by simp [List.count_replicate]) ?_
  simp [realPolynomial, linearFactors, reals, real?]

theorem eq_single_of_not_several {a : ℚ} {rest : List ℚ} (nonzero : a ≠ 0)
    (one : hasSeveralTerms (a :: rest) = false) : a :: rest = single a rest.length := by
  have zeros : rest.filter (· ≠ 0) = [] := by
    rw [hasSeveralTerms, List.filter_cons_of_pos (by simpa using nonzero)] at one
    simpa using one
  rw [single, List.cons.injEq]
  refine ⟨rfl, List.eq_replicate_iff.mpr ⟨rfl, fun q mem => ?_⟩⟩
  simpa using List.filter_eq_nil_iff.mp zeros q mem

theorem accounts_linear {a : ℚ} (nonzero : a ≠ 0) (b : ℚ) :
    Accounts [.rational (-b / a)] (realPolynomial [a, b]) := by
  have real : (a : ℝ) ≠ 0 := Rat.cast_ne_zero.mpr nonzero
  refine .of_linearFactors real (by simp) ?_
  have root : (a : ℝ) * ((-b / a : ℚ) : ℝ) = -b := by
    push_cast
    field_simp
  rw [linearFactors, reals_rational, reals_nil, List.map_singleton, List.prod_singleton, mul_sub,
    ← C_mul, root]
  simp [realPolynomial, polynomialOf]

/-- **The quadratic formula**, with rational roots or with radicals. -/
theorem accounts_realRoots {a b c : ℚ} (nonzero : a ≠ 0) {r s : Root}
    (roots : realRoots a b c = .ok (some (r, s))) : Accounts [r, s] (realPolynomial [a, b, c]) := by
  have real : (a : ℝ) ≠ 0 := Rat.cast_ne_zero.mpr nonzero
  have polynomial : realPolynomial [a, b, c] = C (a : ℝ) * X ^ 2 + C (b : ℝ) * X + C (c : ℝ) := by
    simp [realPolynomial, polynomialOf_quadratic]
  rw [realRoots] at roots
  split at roots
  · cases roots
  · rename_i nonneg
    split at roots
    · rename_i x y split
      obtain ⟨rfl, rfl⟩ := Prod.mk.inj (Option.some.inj (Except.ok.inj roots))
      refine .of_linearFactors real (by simp) ?_
      have factors := congrArg (map (algebraMap ℚ ℝ)) (quadraticRoots?_factors nonzero split)
      simpa [polynomial, linearFactors] using factors.symm
    · cases simplified : Radical.sqrt (discriminant a b c) with
      | error e =>
        rw [simplified] at roots
        cases roots
      | ok root =>
        rw [simplified] at roots
        obtain ⟨rfl, rfl⟩ := Prod.mk.inj (Option.some.inj (Except.ok.inj roots))
        have value := Radical.real_sqrt simplified
        have square : root.real * root.real = (b : ℝ) * b - 4 * a * c := by
          rw [value, Real.mul_self_sqrt (by exact_mod_cast not_lt.mp nonneg), discriminant]
          push_cast
          ring
        have scaled : (root.scale (1 / (2 * a))).real = root.real / (2 * a) := by
          rw [Radical.real_scale]
          push_cast
          ring
        refine .of_linearFactors real (by simp) ?_
        rw [polynomial, ← quadratic_factors real square, linearFactors]
        simp only [reals_surd, reals_nil, List.map_cons, List.map_nil, List.prod_cons, List.prod_nil,
          mul_one, Radical.real_neg, scaled]
        push_cast
        rw [← add_div, ← sub_eq_add_neg, ← sub_div]

/-- **The roots of one factor account for it.** -/
theorem accounts_factorRoots {cs : List ℚ} (leading : HasLeading cs) :
    Accounts (factorRoots cs) (realPolynomial cs) := by
  have markers := Accounts.of_markers leading.realPolynomial_ne_zero leading.natDegree_realPolynomial
  obtain ⟨a, rest, nonzero, rfl⟩ := leading
  unfold factorRoots
  split
  · split
    · rename_i same
      obtain ⟨rfl, rfl⟩ := List.cons.inj same
      exact accounts_linear nonzero _
    · rename_i b c same
      obtain ⟨rfl, rfl⟩ := List.cons.inj same
      split
      · rename_i r s roots
        exact accounts_realRoots nonzero roots
      · exact markers
    · exact markers
  · rename_i several
    rw [eq_single_of_not_several nonzero (by simpa using several)]
    simpa [single] using accounts_single nonzero rest.length

/-- The roots of several factors account for their product. -/
theorem accounts_flatMap {factors : List (List ℚ)} (leading : ∀ g ∈ factors, HasLeading g) :
    Accounts (factors.flatMap factorRoots) (((factors.map polynomialOf).prod).map (algebraMap ℚ ℝ)) := by
  induction factors with
  | nil => exact .of_linearFactors one_ne_zero rfl (by simp [linearFactors])
  | cons g rest ih =>
    obtain ⟨here, there⟩ := List.forall_mem_cons.mp leading
    rw [List.flatMap_cons, List.map_cons, List.prod_cons, Polynomial.map_mul]
    exact (accounts_factorRoots here).append (ih there)

/-- **All roots together account for the polynomial.** -/
theorem accounts_allRoots {cs : List ℚ} (leading : HasLeading cs) :
    Accounts (allRoots cs) (realPolynomial cs) := by
  have splits := splits_completeFactors leading
  have account := accounts_flatMap splits.leading
  rwa [splits.product] at account

end Dense

namespace Poly

open Root

/-- **The polynomial over the reals.** -/
noncomputable def realPolynomial (p : Poly) : ℝ[X] :=
  p.toPolynomial.map (algebraMap ℚ ℝ)

section Natural

variable {p : Poly} (natural : p.IsNatural) {d : Nat} (degree : p.degree? = some (d : ℚ))

include natural degree

/-- The coefficients of a polynomial of a given degree. -/
theorem dense_of_degree :
    ∃ cs, p.dense = .ok cs ∧ Dense.polynomialOf cs = p.toPolynomial ∧ Dense.HasLeading cs ∧
      p.toPolynomial.natDegree = d := by
  obtain ⟨cs, found, value, ⟨-, none⟩ | ⟨leading, top⟩⟩ := dense_natural natural
  · rw [none] at degree
    cases degree
  · refine ⟨cs, found, value, leading, ?_⟩
    have same : cs.length - 1 = d := Nat.cast_injective (Option.some.inj (top.symm.trans degree))
    rw [← value, ← same, leading.length_eq, Nat.add_sub_cancel]

theorem leadingCoeff_toPolynomial :
    p.toPolynomial.leadingCoeff = p.leadingCoefficient.coefficient := by
  obtain ⟨-, -, -, -, natDegree⟩ := dense_of_degree natural degree
  rw [degree?] at degree
  cases terms : p.terms with
  | nil =>
    rw [terms] at degree
    cases degree
  | cons t rest =>
    rw [terms] at degree
    have mem : t ∈ p.terms := by
      rw [terms]
      exact List.mem_cons_self
    obtain ⟨c, n, rfl⟩ := t.isNatural_iff.mp (natural t mem)
    obtain rfl : n = d := Nat.cast_injective (Option.some.inj degree)
    have coefficient := ((mem_iff_coeff natural p.descending p.nonzero c n).mp mem).2
    rw [leadingCoeff, natDegree, leadingCoefficient, terms]
    exact coefficient

end Natural

/-- The roots of a polynomial that is no constant are those of its coefficients. -/
theorem allRoots_of_degree {p : Poly} {d : Nat} (degree : p.degree? = some (d : ℚ))
    (positive : 1 ≤ d) {cs : List ℚ} (found : p.dense = .ok cs) : p.allRoots = Dense.allRoots cs := by
  have above : ¬ (d : ℚ) ≤ 0 := not_le.mpr (Nat.cast_pos.mpr positive)
  rw [allRoots, degree]
  simp only [if_neg above, found]

end Poly

end ExactAlgebra
