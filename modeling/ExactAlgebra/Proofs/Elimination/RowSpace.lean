import ExactAlgebra.Matrix.Operation
import ExactAlgebra.Proofs.Elimination.Echelon
import Mathlib.LinearAlgebra.Matrix.ToLin

/-!
# The reduced echelon form of a row space

Elimination multiplies by an invertible matrix, so it keeps the row space. In a reduced echelon form
the weights of a combination of rows can be read off at the pivots. Hence the first entry of any
vector of the row space stands in a column of a pivot; this determines the pivots by the row space,
and with them the rows. So a row space has one reduced echelon form only.

## Main statements

* `rowSpace_eq_of_transform` — an invertible matrix keeps the row space;
* `vecMul_pivot`, `eq_of_pivots` — a vector of the row space is known by its entries at the pivots;
* `pivots_eq` — the pivots are determined by the row space;
* `reduced_unique` — and so is the reduced echelon form;
* `Mat.reducedEchelon_canonical` — the form that elimination computes is that of the row space.

## Main definitions

* `Grid.rowSpace` — the combinations of the rows.
-/

namespace ExactAlgebra

open Matrix

variable {m n : Nat}

/-! ## Row spaces -/

/-- **The row space of a grid**: all combinations of its rows. -/
def Grid.rowSpace (g : Grid m n) : Submodule ℚ (Fin n → ℚ) :=
  Submodule.span ℚ (Set.range g.toMatrix.row)

theorem Grid.mem_rowSpace {g : Grid m n} {v : Fin n → ℚ} :
    v ∈ g.rowSpace ↔ ∃ w : Fin m → ℚ, w ᵥ* g.toMatrix = v := by
  rw [rowSpace, ← range_vecMulLinear, LinearMap.mem_range]
  rfl

theorem Grid.row_mem_rowSpace (g : Grid m n) (i : Fin m) : g.entry i ∈ g.rowSpace :=
  Submodule.subset_span ⟨i, rfl⟩

/-- **An invertible matrix keeps the row space.** -/
theorem rowSpace_eq_of_transform {g h : Grid m n} {T : Matrix (Fin m) (Fin m) ℚ} (unit : IsUnit T)
    (transformed : h.toMatrix = T * g.toMatrix) : h.rowSpace = g.rowSpace := by
  ext v
  rw [Grid.mem_rowSpace, Grid.mem_rowSpace, transformed]
  constructor
  · rintro ⟨w, rfl⟩
    exact ⟨w ᵥ* T, vecMul_vecMul w T g.toMatrix⟩
  · rintro ⟨w, rfl⟩
    -- the weights before the transformation come from some after it
    obtain ⟨u, rfl⟩ := vecMul_surjective_iff_isUnit.mpr unit w
    exact ⟨u, (vecMul_vecMul u T g.toMatrix).symm⟩

/-! ## Entries at the pivots -/

section Pivots

variable {A B : Matrix (Fin m) (Fin n) ℚ}

/-- A column of a pivot has the pivot as its only entry. -/
theorem pivot_column (reduced : A.IsReducedRowEchelon) {i : Fin m} {c : Fin n}
    (leading : A.IsLeadingEntry i c) (k : Fin m) : A k c = if k = i then 1 else 0 := by
  split
  · rename_i same
    rw [same]
    exact reduced.eq_one leading
  · rename_i apart
    exact reduced.eq_zero_of_ne_of_isLeadingEntry apart leading

/-- **At a pivot a combination of the rows has the weight of the pivot row.** -/
theorem vecMul_pivot (reduced : A.IsReducedRowEchelon) {i : Fin m} {c : Fin n}
    (leading : A.IsLeadingEntry i c) (w : Fin m → ℚ) : (w ᵥ* A) c = w i := by
  simp [vecMul, dotProduct, pivot_column reduced leading]

/-- **A combination of the rows is known by its entries at the pivots.** -/
theorem eq_of_pivots (reduced : A.IsReducedRowEchelon) {v w : Fin m → ℚ}
    (agree : ∀ i c, A.IsLeadingEntry i c → (v ᵥ* A) c = (w ᵥ* A) c) : v ᵥ* A = w ᵥ* A := by
  funext j
  show ∑ i, v i * A i j = ∑ i, w i * A i j
  apply Finset.sum_congr rfl
  intro i _
  -- either the weights are the entries at the pivot of the row, or the row is zero
  by_cases zero : A i = 0
  · rw [zero, Pi.zero_apply, mul_zero, mul_zero]
  · obtain ⟨c, leading⟩ := row_ne_zero_iff_exists_isLeadingEntry.mp zero
    have weights := agree i c leading
    rw [vecMul_pivot reduced leading, vecMul_pivot reduced leading] at weights
    rw [weights]

/-- **The first entry of a combination of the rows stands in the column of a pivot.** -/
theorem exists_pivot (reduced : A.IsReducedRowEchelon) {w : Fin m → ℚ} {c : Fin n}
    (before : ∀ j < c, (w ᵥ* A) j = 0) (nonzero : (w ᵥ* A) c ≠ 0) :
    ∃ i, A.IsLeadingEntry i c := by
  have sum : ∑ i, w i * A i c ≠ 0 := nonzero
  obtain ⟨i, -, product⟩ := Finset.exists_ne_zero_of_sum_ne_zero sum
  have weight : w i ≠ 0 := left_ne_zero_of_mul product
  have entry : A i c ≠ 0 := right_ne_zero_of_mul product
  -- a row that takes part has its pivot neither behind the entry nor in front of it
  obtain ⟨d, leading⟩ := row_ne_zero_iff_exists_isLeadingEntry.mp
    (show A i ≠ 0 from fun zero => entry (congrFun zero c))
  have not_behind : ¬ c < d := fun lt => entry (leading.1 c lt)
  have not_before : ¬ d < c := by
    intro lt
    apply weight
    rw [← vecMul_pivot reduced leading w]
    exact before d lt
  obtain rfl : c = d := le_antisymm (not_lt.mp not_before) (not_lt.mp not_behind)
  exact ⟨i, leading⟩

/-! ## Uniqueness -/

/-- If every pivot column of the first form is one of the second, and the forms have the same pivots
in the rows above, then the second has its next pivot no later. -/
theorem pivot_le {l l' : Fin m → WithTop (Fin n)} (pivoted : A.IsPivotedBy l)
    (pivoted' : B.IsPivotedBy l') (columns : ∀ i c, A.IsLeadingEntry i c → ∃ k, B.IsLeadingEntry k c)
    {i : Fin m} (above : ∀ k < i, l k = l' k) : l' i ≤ l i := by
  cases here : l i with
  | top => exact le_top
  | coe c =>
    obtain ⟨k, leading⟩ := columns i c (pivoted.isLeadingEntry here)
    have there : l' k = c := by
      cases other : l' k with
      | top => exact absurd (pivoted'.eq_top_iff.mp other) leading.row_ne_zero
      | coe d => rw [(pivoted'.isLeadingEntry other).unique leading]
    rcases lt_or_ge k i with lt | ge
    · -- two rows of the first form cannot have their pivots in one column
      have less := pivoted.lt_of_lt_of_ne_top lt (by rw [above k lt, there]; exact WithTop.coe_ne_top)
      rw [above k lt, there, here] at less
      exact absurd less (lt_irrefl _)
    · rw [← there]
      exact pivoted'.monotone ge

/-- **The columns of the pivots determine the pivots.** -/
theorem pivots_eq {l l' : Fin m → WithTop (Fin n)} (pivoted : A.IsPivotedBy l)
    (pivoted' : B.IsPivotedBy l')
    (columns : ∀ i c, A.IsLeadingEntry i c → ∃ k, B.IsLeadingEntry k c)
    (columns' : ∀ i c, B.IsLeadingEntry i c → ∃ k, A.IsLeadingEntry k c) : l = l' := by
  funext i
  -- from the first row down, each form has its next pivot no later than the other
  induction i using WellFoundedLT.induction with
  | ind i above =>
    apply le_antisymm
    · exact pivot_le pivoted' pivoted columns' fun k lt => (above k lt).symm
    · exact pivot_le pivoted pivoted' columns above

end Pivots

section Forms

variable {g h : Grid m n}

/-- The pivots of a reduced form are in columns of pivots of any other form of its row space. -/
theorem exists_pivot_of_rowSpace (reduced : h.toMatrix.IsReducedRowEchelon)
    (spans : g.rowSpace ≤ h.rowSpace) (i : Fin m) (c : Fin n) (leading : g.toMatrix.IsLeadingEntry i c) :
    ∃ k, h.toMatrix.IsLeadingEntry k c := by
  obtain ⟨w, combination⟩ := Grid.mem_rowSpace.mp (spans (g.row_mem_rowSpace i))
  apply exists_pivot reduced (w := w)
  · intro j lt
    rw [combination]
    exact leading.1 j lt
  · rw [combination]
    exact leading.2

/-- **A row space has one reduced echelon form.** -/
theorem reduced_unique (reduced : g.toMatrix.IsReducedRowEchelon)
    (reduced' : h.toMatrix.IsReducedRowEchelon) (same : g.rowSpace = h.rowSpace) : g = h := by
  have pivoted := g.isPivotedBy reduced.isRowEchelon
  have pivoted' := h.isPivotedBy reduced'.isRowEchelon
  have pivots := pivots_eq pivoted pivoted' (exists_pivot_of_rowSpace reduced' same.le)
    (exists_pivot_of_rowSpace reduced same.ge)
  have leading : ∀ k c, h.toMatrix.IsLeadingEntry k c → g.toMatrix.IsLeadingEntry k c := by
    intro k c there
    refine pivoted.isLeadingEntry ((congrFun pivots k).trans ?_)
    show (h.leadingColumn? k).elim ⊤ WithTop.some = c
    rw [(h.leadingColumn?_eq_some_iff k c).mpr there]
    rfl
  refine Grid.ext_entries fun i j => ?_
  -- a row of the first form is a combination of those of the second, with the same pivots as its row
  obtain ⟨w, combination⟩ := Grid.mem_rowSpace.mp (same.le (g.row_mem_rowSpace i))
  have row : Pi.single i 1 ᵥ* h.toMatrix = h.entry i := single_one_vecMul i h.toMatrix
  rw [← combination, ← row]
  refine congrFun (eq_of_pivots reduced' fun k c there => ?_) j
  rw [combination, row]
  have left := pivot_column reduced (leading k c there) i
  have right := pivot_column reduced' there i
  exact left.trans right.symm

end Forms

/-! ## The computed form -/

theorem rowSpace_reducedEchelon (g : Grid m n) : (reducedEchelon g).grid.rowSpace = g.rowSpace :=
  rowSpace_eq_of_transform (isUnit_transform_reducedEchelon g) (reducedEchelon g).toMatrix_grid

/-- **Two grids have the same reduced form if and only if they have the same row space.** -/
theorem reducedEchelon_eq_iff (g h : Grid m n) :
    (reducedEchelon g).grid = (reducedEchelon h).grid ↔ g.rowSpace = h.rowSpace := by
  constructor
  · intro same
    rw [← rowSpace_reducedEchelon g, same, rowSpace_reducedEchelon h]
  · intro same
    apply reduced_unique (isReducedRowEchelon_reducedEchelon g) (isReducedRowEchelon_reducedEchelon h)
    rw [rowSpace_reducedEchelon, rowSpace_reducedEchelon, same]

/-- **Elimination computes the canonical form of the row space**: a reduced row echelon form that an
invertible matrix leads to. Matrices of one shape have the same form if and only if they have the
same row space, and the form is its own form. -/
theorem Mat.reducedEchelon_canonical (g : Grid m n) :
    ∃ r : Grid m n, Mat.reducedEchelon ⟨m, n, g⟩ = ⟨m, n, r⟩ ∧
      r.toMatrix.IsReducedRowEchelon ∧
      (∃ T : Matrix (Fin m) (Fin m) ℚ, IsUnit T ∧ r.toMatrix = T * g.toMatrix) ∧
      (∀ h : Grid m n, Mat.reducedEchelon ⟨m, n, g⟩ = Mat.reducedEchelon ⟨m, n, h⟩ ↔
        g.rowSpace = h.rowSpace) ∧
      Mat.reducedEchelon (Mat.reducedEchelon ⟨m, n, g⟩) = Mat.reducedEchelon ⟨m, n, g⟩ := by
  have whole : ∀ h k : Grid m n, Mat.reducedEchelon ⟨m, n, h⟩ = Mat.reducedEchelon ⟨m, n, k⟩ ↔
      h.rowSpace = k.rowSpace := by
    intro h k
    rw [← reducedEchelon_eq_iff, Mat.reducedEchelon, Mat.reducedEchelon]
    simp
  refine ⟨(ExactAlgebra.reducedEchelon g).grid, rfl, isReducedRowEchelon_reducedEchelon g,
    ⟨_, isUnit_transform_reducedEchelon g, (ExactAlgebra.reducedEchelon g).toMatrix_grid⟩,
    whole g, ?_⟩
  exact (whole _ _).mpr (rowSpace_reducedEchelon g)

end ExactAlgebra
