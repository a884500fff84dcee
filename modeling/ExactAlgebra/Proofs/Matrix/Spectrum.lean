import ExactAlgebra.Matrix.Spectrum
import ExactAlgebra.Proofs.Cofactor.Expansion
import ExactAlgebra.Proofs.Equation.Roots
import ExactAlgebra.Proofs.Poly.Represents
import Mathlib.LinearAlgebra.Matrix.Charpoly.Coeff

/-!
# The characteristic polynomial

Each entry of `x·I - A` stands for a polynomial over the rationals, in one given variable, and so do
sums and products of such entries. The expansion along first rows therefore never fails, and by
induction on the size it stands for the determinant over the polynomials. A minor of `x·I - A` is in
general no longer of that shape, so the induction is about squares of any such polynomials. Values,
degree and leading coefficient can then be read off the characteristic polynomial of linear algebra.

## Main statements

* `foldlM_represents` — running totals of polynomials in one variable;
* `PolyGrid.Represents.det` — the expansion stands for the determinant;
* `Mat.characteristicPolynomial_represents` — and so does the characteristic polynomial;
* `Poly.Represents.evaluate`, `Poly.Represents.degree`, `Poly.Represents.accounts` — what a polynomial
  has from the one it stands for;
* `Mat.characteristicPolynomial_eq_det` — the characteristic polynomial and the determinant.

## Main definitions

* `PolyGrid.Represents` — a square of polynomials in one variable;
* `Mat.detAt` — the determinant of `t·I - A`.
-/

namespace ExactAlgebra

open Polynomial Matrix

/-! ## What a polynomial has from the one it stands for -/

namespace Poly

variable {p : Poly} {symbol : String} {v : ℚ[X]}

/-- Zero need not name the variable either. -/
theorem represents_zero {name symbol : String} (named : name = symbol ∨ name = "") :
    (zero name).Represents symbol 0 where
  natural := by
    rintro t ⟨⟩
  value := rfl
  named := named.imp_right fun nameless => ⟨nameless, natDegree_zero⟩

namespace Represents

/-- A polynomial without terms stands for zero. -/
theorem eq_zero (hp : p.Represents symbol v) (empty : p.isZero = true) : v = 0 := by
  rw [← hp.value, toPolynomial, List.isEmpty_iff.mp empty, Term.sum_nil]

/-- **The value at a point.** -/
theorem evaluate (hp : p.Represents symbol v) (t : ℚ) : p.evaluate t = .ok (v.eval t) := by
  rw [evaluate_natural hp.natural, hp.value]

/-- **The degree.** -/
theorem degree (hp : p.Represents symbol v) (nonzero : v ≠ 0) :
    p.degree? = some (v.natDegree : ℚ) := by
  obtain ⟨cs, -, value, ⟨rfl, -⟩ | ⟨leading, degree⟩⟩ := dense_natural hp.natural
  · rw [Dense.polynomialOf_nil, hp.value] at value
    exact absurd value.symm nonzero
  · rw [degree, leading.length_eq, value, hp.value, Nat.add_sub_cancel]

/-- **The leading coefficient.** -/
theorem leadingCoefficient (hp : p.Represents symbol v) (nonzero : v ≠ 0) :
    p.leadingCoefficient = .ofRat v.leadingCoeff := by
  have value := leadingCoeff_toPolynomial hp.natural (hp.degree nonzero)
  rw [← hp.value, value]
  refine Radical.eq_ofRat ?_
  rw [Poly.leadingCoefficient]
  cases terms : p.terms with
  | nil => rfl
  | cons t rest => exact (hp.natural t (by simp [terms])).1

/-- **The roots account for what is represented.** -/
theorem accounts (hp : p.Represents symbol v) (nonzero : v ≠ 0) :
    Root.Accounts p.allRoots (v.map (algebraMap ℚ ℝ)) := by
  have degree := hp.degree nonzero
  rcases Nat.eq_zero_or_pos v.natDegree with constant | positive
  · have none : p.allRoots = [] := by
      rw [allRoots, degree, constant]
      rfl
    rw [none]
    refine ⟨_, (Polynomial.map_ne_zero_iff (algebraMap ℚ ℝ).injective).mpr nonzero, ?_, ?_⟩
    · rw [Root.linearFactors, Root.reals_nil, List.map_nil, List.prod_nil, one_mul]
    · rw [natDegree_map, constant, List.count_nil]
  · obtain ⟨cs, found, value, leading, -⟩ := dense_of_degree hp.natural degree
    rw [allRoots_of_degree degree positive found, ← hp.value, ← value]
    exact Dense.accounts_allRoots leading

end Represents

end Poly

/-! ## Running totals -/

/-- **A running total of polynomials in one variable**, if every step adds one. -/
theorem foldlM_represents {α : Type} {symbol : String} {step : Poly → α → Except Error Poly}
    {value : α → ℚ[X]}
    (adds : ∀ {total v} a, total.Represents symbol v →
      ∃ next, step total a = .ok next ∧ next.Represents symbol (v + value a))
    {start : Poly} {v : ℚ[X]} (represents : start.Represents symbol v) (as : List α) :
    ∃ r, as.foldlM step start = .ok r ∧ r.Represents symbol (v + (as.map value).sum) := by
  induction as generalizing start v with
  | nil => exact ⟨start, rfl, by simpa using represents⟩
  | cons a rest ih =>
    obtain ⟨next, added, result⟩ := adds a represents
    obtain ⟨r, folded, total⟩ := ih result
    refine ⟨r, ?_, ?_⟩
    · rw [List.foldlM_cons, added]
      exact folded
    · rwa [List.map_cons, List.sum_cons, ← add_assoc]

/-! ## Squares of polynomials -/

namespace PolyGrid

variable {n : Nat} {symbol : String}

/-- **A square of polynomials in the variable `symbol`** that stands for a matrix. -/
def Represents (g : PolyGrid n) (symbol : String) (M : Matrix (Fin n) (Fin n) ℚ[X]) : Prop :=
  ∀ i j, (g.entry i j).Represents symbol (M i j)

theorem entry_minor (g : PolyGrid (n + 1)) (j : Fin (n + 1)) (i k : Fin n) :
    (g.minor j).entry i k = g.entry i.succ (j.succAbove k) := by
  have rows : (g.eraseIdx 0)[i.val] = g[(Fin.succAbove 0 i).val] :=
    Grid.getElem_eraseIdx_succAbove g 0 i
  rw [← Fin.succAbove_zero]
  show ((g.eraseIdx 0).map fun row => row.eraseIdx j.val)[i.val][k.val] =
    g[(Fin.succAbove 0 i).val][(j.succAbove k).val]
  rw [Vector.getElem_map, ← Grid.getElem_eraseIdx_succAbove, ← rows]

namespace Represents

variable {g : PolyGrid (n + 1)} {M : Matrix (Fin (n + 1)) (Fin (n + 1)) ℚ[X]}

theorem minor (represents : g.Represents symbol M) (j : Fin (n + 1)) :
    (g.minor j).Represents symbol (M.submatrix Fin.succ j.succAbove) := by
  intro i k
  rw [entry_minor]
  exact represents i.succ (j.succAbove k)

/-- **One term of the expansion** adds its signed product, unless the entry is zero. -/
theorem laplaceStep (represents : g.Represents symbol M) {minor : Except Error Poly} {w : ℚ[X]}
    (smaller : ∃ d, minor = .ok d ∧ d.Represents symbol w) (j : Fin (n + 1)) {total : Poly} {v : ℚ[X]}
    (before : total.Represents symbol v) :
    ∃ next, (do
        if (g.entry 0 j).isZero then return total
        let term ← (g.entry 0 j).mul (← minor)
        if j.val % 2 = 0 then total.add term else total.sub term) = .ok next ∧
      next.Represents symbol (v + (-1) ^ j.val * M 0 j * w) := by
  split
  · rename_i empty
    refine ⟨total, rfl, ?_⟩
    rwa [(represents 0 j).eq_zero empty, mul_zero, zero_mul, add_zero]
  · obtain ⟨d, rfl, value⟩ := smaller
    obtain ⟨term, multiplied, product⟩ := (represents 0 j).mul value
    simp only [bind, Except.bind, multiplied]
    split
    · rename_i even
      rw [Even.neg_one_pow (Nat.even_iff.mpr even), one_mul]
      exact before.add product
    · rename_i odd
      rw [Odd.neg_one_pow (Nat.odd_iff.mpr (by omega)), neg_one_mul, neg_mul, ← sub_eq_add_neg]
      exact before.sub product

end Represents

/-- **The expansion stands for the determinant.** -/
theorem Represents.det {g : PolyGrid n} {M : Matrix (Fin n) (Fin n) ℚ[X]}
    (represents : g.Represents symbol M) : ∃ p, g.det = .ok p ∧ p.Represents symbol M.det := by
  induction n using Nat.strong_induction_on with
  | _ n ih =>
    match n, g, M with
    | 0, g, M =>
      refine ⟨_, rfl, ?_⟩
      rw [Matrix.det_fin_zero, ← C_1]
      exact Poly.represents_constant 1 symbol
    | 1, g, M =>
      refine ⟨_, rfl, ?_⟩
      rw [Matrix.det_fin_one]
      exact represents 0 0
    | 2, g, M =>
      obtain ⟨p, first, hp⟩ := (represents 0 0).mul (represents 1 1)
      obtain ⟨q, second, hq⟩ := (represents 0 1).mul (represents 1 0)
      obtain ⟨r, difference, hr⟩ := hp.sub hq
      refine ⟨r, ?_, ?_⟩
      · show (do (← (g.entry 0 0).mul (g.entry 1 1)).sub (← (g.entry 0 1).mul (g.entry 1 0))) = .ok r
        rw [first, second]
        exact difference
      · rwa [Matrix.det_fin_two]
    | n + 3, g, M =>
      obtain ⟨p, folded, total⟩ := foldlM_represents
        (fun j before => represents.laplaceStep (ih (n + 2) (by omega) (represents.minor j)) j before)
        (Poly.represents_zero (.inr rfl)) (List.finRange (n + 3))
      refine ⟨p, folded, ?_⟩
      rwa [zero_add, ← Fin.sum_univ_def, ← Matrix.det_succ_row_zero] at total

end PolyGrid

/-! ## The characteristic polynomial -/

section Characteristic

variable {n : Nat} (symbol : String) (g : Grid n n)

theorem characteristicEntry_represents (diagonal : Bool) (q : ℚ) :
    ∃ p, characteristicEntry symbol diagonal q = .ok p ∧
      p.Represents symbol ((if diagonal then X else 0) - C q) := by
  rw [characteristicEntry]
  have constant := Poly.represents_constant q symbol
  cases diagonal with
  | false => exact (Poly.represents_zero (.inl rfl)).sub constant
  | true =>
    have power := Poly.represents_power symbol 1
    rw [pow_one] at power
    exact power.sub constant

theorem characteristicGrid_represents :
    ∃ G, characteristicGrid symbol g = .ok G ∧ G.Represents symbol g.toMatrix.charmatrix := by
  choose entry found represents using fun i j : Fin n =>
    characteristicEntry_represents symbol (i = j) (g.entry i j)
  refine ⟨Vector.ofFn fun i => Vector.ofFn fun j => entry i j, ?_, fun i j => ?_⟩
  · simp only [characteristicGrid, found, ← pure_eq_ok, Vector.ofFnM_pure]
  · rw [charmatrix_apply, Matrix.diagonal_apply, Grid.toMatrix_apply]
    show ((Vector.ofFn fun i => Vector.ofFn fun j => entry i j)[i.val][j.val]).Represents _ _
    simpa using represents i j

/-- **The characteristic polynomial** is the one of linear algebra. -/
theorem Mat.characteristicPolynomial_represents :
    ∃ p, Mat.characteristicPolynomial symbol ⟨n, n, g⟩ = .ok p ∧
      p.Represents symbol g.toMatrix.charpoly := by
  rw [characteristicPolynomial, squareGrid_square]
  simp only [bind, Except.bind]
  split
  · rename_i empty
    subst empty
    rw [charpoly_isEmpty]
    exact ⟨_, rfl, Poly.isNatural_ofTerm_natural 1 0 symbol,
      Poly.toPolynomial_ofTerm_natural 1 0 symbol, .inl rfl⟩
  · obtain ⟨G, found, represents⟩ := characteristicGrid_represents symbol g
    rw [found]
    exact represents.det

/-- The determinant of `t·I - A`, as elimination computes it. -/
def Mat.detAt (t : ℚ) : Except Error ℚ :=
  (Mat.scale ⟨n, n, Grid.identity n⟩ t).sub ⟨n, n, g⟩ >>= Mat.det

/-- It is the value of the characteristic polynomial of linear algebra. -/
theorem Mat.detAt_eq (t : ℚ) : detAt g t = .ok (g.toMatrix.charpoly.eval t) := by
  have difference : (Mat.scale ⟨n, n, Grid.identity n⟩ t).sub ⟨n, n, g⟩ =
      .ok ⟨n, n, ((Grid.identity n).scale t).sub g⟩ := by
    rw [Mat.sub, Mat.combine, dif_pos ⟨rfl, rfl⟩]
    simp [Mat.scale]
  have entries : (((Grid.identity n).scale t).sub g).toMatrix =
      Matrix.scalar (Fin n) t - g.toMatrix := by
    ext i j
    simp [Grid.entry_identity, Matrix.diagonal_apply]
  have value : (((Grid.identity n).scale t).sub g).det = g.toMatrix.charpoly.eval t := by
    rw [Grid.det_eq, entries, eval_charpoly]
  rw [detAt, difference, bind_ok, Mat.det, squareGrid_square]
  exact congrArg Except.ok value

end Characteristic

end ExactAlgebra
