import ExactAlgebra.Proofs.System.Pivot
import Mathlib.LinearAlgebra.Matrix.ToLin

/-!
# The solutions of a reduced system

In a reduced system the row of a pivot gives the unknown of the pivot in terms of the free unknowns.
A choice of values for the free unknowns therefore extends to exactly one solution, and that solution
is the particular one plus the basis columns weighted with the choice.

## Main statements

* `entry_particular_leading`, `entry_basis_leading`, … — the entries of both answers;
* `mul_eq_iff` — the solutions of a reduced system;
* `linearIndependent_basis` — no column of the basis is redundant.

## Main definitions

* `reducedParticular`, `reducedBasis` — the two answers as grids.
-/

namespace ExactAlgebra

open Matrix

variable {m n q : Nat}

/-- The rows of a matrix as lists hold the entries of its grid. -/
theorem Mat.getD_toLists (a : Mat) (i : Fin a.rows) (j : Fin a.cols) :
    (a.toLists.getD i.val []).getD j.val 0 = a.grid.entry i j := by
  simp [Mat.toLists, Grid.entry, Grid.row]

/-- The particular solution of a reduced system as a grid. -/
def reducedParticular (g : Grid m n) (d : Grid m q) : Grid n 1 :=
  (particularSolution ⟨m, n, g⟩ ⟨m, q, d⟩).grid

/-- The basis of a reduced system as a grid. -/
def reducedBasis (g : Grid m n) : Grid n (freeCount g) :=
  (homogeneousBasis ⟨m, n, g⟩).grid

section Entries

theorem entry_particular (g : Grid m n) (d : Grid m q) (c : Fin n) (z : Fin 1) :
    (reducedParticular g d).entry c z =
      match pivotRow? (Mat.leadingColumns ⟨m, n, g⟩) c with
      | some row => ((Mat.toLists ⟨m, q, d⟩).getD row []).getD 0 0
      | none => 0 :=
  Grid.entry_ofEntries _ c z

theorem entry_basis (g : Grid m n) (c : Fin n) (k : Fin (freeCount g)) :
    (reducedBasis g).entry c k =
      if c = freeColumn g k then 1
      else
        match pivotRow? (Mat.leadingColumns ⟨m, n, g⟩) c with
        | some row => -(((Mat.toLists ⟨m, n, g⟩).getD row []).getD (freeColumn g k).val 0)
        | none => 0 :=
  Grid.entry_ofEntries _ c k

variable {g : Grid m n}

theorem entry_particular_free (d : Grid m q) {c : Fin n} (free : ∀ i, g.leadingColumn? i ≠ some c)
    (z : Fin 1) : (reducedParticular g d).entry c z = 0 := by
  rw [entry_particular, (pivotRow?_eq_none_iff c).mpr free]

theorem entry_basis_free (k : Fin (freeCount g)) {c : Fin n}
    (free : ∀ i, g.leadingColumn? i ≠ some c) :
    (reducedBasis g).entry c k = if c = freeColumn g k then 1 else 0 := by
  rw [entry_basis, (pivotRow?_eq_none_iff c).mpr free]

variable (echelon : g.toMatrix.IsRowEchelon)

include echelon

theorem entry_particular_leading (d : Grid m (q + 1)) {i : Fin m} {c : Fin n}
    (leading : g.leadingColumn? i = some c) (z : Fin 1) :
    (reducedParticular g d).entry c z = d.entry i 0 := by
  rw [entry_particular, pivotRow?_of_leading echelon leading]
  exact Mat.getD_toLists ⟨m, q + 1, d⟩ i 0

theorem entry_basis_leading (k : Fin (freeCount g)) {i : Fin m} {c : Fin n}
    (leading : g.leadingColumn? i = some c) :
    (reducedBasis g).entry c k = -g.entry i (freeColumn g k) := by
  have apart : c ≠ freeColumn g k := by
    rintro rfl
    exact freeColumn_free g k i leading
  rw [entry_basis, if_neg apart, pivotRow?_of_leading echelon leading]
  exact congrArg Neg.neg (Mat.getD_toLists ⟨m, n, g⟩ i _)

end Entries

/-! ## The free unknowns -/

section Weights

variable {g : Grid m n} (w : Grid (freeCount g) 1)

/-- At a free unknown the weighted basis columns add up to its weight. -/
theorem entry_basis_mul_free (k : Fin (freeCount g)) (z : Fin 1) :
    ((reducedBasis g).mul w).entry (freeColumn g k) z = w.entry k z := by
  rw [Grid.entry_mul, Finset.sum_eq_single k]
  · rw [entry_basis_free k (freeColumn_free g k), if_pos rfl, one_mul]
  · intro l _ apart
    rw [entry_basis_free l (freeColumn_free g k), if_neg, zero_mul]
    intro same
    exact apart (freeColumn_injective g same).symm
  · intro absent
    exact absurd (Finset.mem_univ k) absent

/-- **The columns of the basis are linearly independent.** -/
theorem linearIndependent_basis (g : Grid m n) : LinearIndependent ℚ (reducedBasis g).toMatrix.col := by
  rw [← Matrix.mulVec_injective_iff]
  intro v w same
  funext k
  have weight : ∀ v : Fin (freeCount g) → ℚ,
      ((reducedBasis g).toMatrix *ᵥ v) (freeColumn g k) = v k := by
    intro v
    have entry := entry_basis_mul_free (g := g) (Grid.ofEntries fun k _ => v k) k 0
    rw [Grid.entry_mul, Grid.entry_ofEntries] at entry
    simpa [Matrix.mulVec, dotProduct] using entry
  rw [← weight v, ← weight w, same]

end Weights

/-! ## Solutions -/

section Reduced

variable {g : Grid m n} (reduced : g.toMatrix.IsReducedRowEchelon)

include reduced

/-- **A row of a reduced system**: the unknown of its pivot and a combination of the free ones. -/
theorem sum_leading_row {i : Fin m} {c : Fin n} (leading : g.leadingColumn? i = some c)
    (x : Fin n → ℚ) :
    ∑ j, g.entry i j * x j = x c + ∑ k,
      g.entry i (freeColumn g k) * x (freeColumn g k) := by
  have isLeading := (g.leadingColumn?_eq_some_iff i c).mp leading
  rw [sum_freeColumn g fun j => g.entry i j * x j,
    ← Finset.sum_filter_add_sum_filter_not Finset.univ fun j => ∀ i, g.leadingColumn? i ≠ some j,
    add_comm, Finset.sum_eq_single c]
  · have one : g.entry i c = 1 := reduced.eq_one isLeading
    rw [one, one_mul]
  · intro j mem apart
    -- the column of another pivot has no entry in this row
    obtain ⟨k, other⟩ : ∃ k, g.leadingColumn? k = some j := by simpa using mem
    have distinct : i ≠ k := by
      rintro rfl
      exact apart (Option.some_injective _ (other.symm.trans leading))
    have zero : g.entry i j = 0 := reduced.eq_zero_of_ne_of_isLeadingEntry distinct
      ((g.leadingColumn?_eq_some_iff k j).mp other)
    rw [zero, zero_mul]
  · intro absent
    refine absurd ?_ absent
    simpa using ⟨i, leading⟩

variable (d : Grid m (q + 1)) (consistent : ∀ i, g.leadingColumn? i = none → d.entry i 0 = 0)

/-- The entry of a combination at the column of a pivot. -/
theorem entry_combination_leading {i : Fin m} {c : Fin n} (leading : g.leadingColumn? i = some c)
    (w : Grid (freeCount g) 1) (z : Fin 1) :
    ((reducedParticular g d).add ((reducedBasis g).mul w)).entry c z =
      d.entry i 0 - ∑ k, g.entry i (freeColumn g k) * w.entry k z := by
  rw [Grid.entry_add, entry_particular_leading reduced.isRowEchelon d leading, Grid.entry_mul,
    sub_eq_add_neg, ← Finset.sum_neg_distrib]
  congr 1
  refine Finset.sum_congr rfl fun k _ => ?_
  rw [entry_basis_leading reduced.isRowEchelon k leading, neg_mul]

omit reduced in
/-- The entry of a combination at a free column. -/
theorem entry_combination_free (k : Fin (freeCount g))
    (w : Grid (freeCount g) 1) (z : Fin 1) :
    ((reducedParticular g d).add ((reducedBasis g).mul w)).entry (freeColumn g k) z =
      w.entry k z := by
  rw [Grid.entry_add, entry_particular_free d (freeColumn_free g k), zero_add,
    entry_basis_mul_free]

include consistent

/-- **Every combination solves the system.** -/
theorem mul_combination (w : Grid (freeCount g) 1) (i : Fin m) (z : Fin 1) :
    (g.mul ((reducedParticular g d).add ((reducedBasis g).mul w))).entry i z = d.entry i 0 := by
  rw [Grid.entry_mul]
  cases leading : g.leadingColumn? i with
  | none =>
    rw [consistent i leading]
    refine Finset.sum_eq_zero fun j _ => ?_
    rw [(g.leadingColumn?_eq_none_iff i).mp leading, zero_mul]
  | some c =>
    rw [sum_leading_row reduced leading fun j =>
        ((reducedParticular g d).add ((reducedBasis g).mul w)).entry j z,
      entry_combination_leading reduced d leading]
    simp only [entry_combination_free]
    rw [sub_add_cancel]

/-- **The solutions of a reduced system** are the particular one plus the combinations of the basis
columns. -/
theorem mul_eq_iff (x : Grid n 1) :
    (∀ i z, (g.mul x).entry i z = d.entry i 0) ↔
      ∃ w, x = (reducedParticular g d).add ((reducedBasis g).mul w) := by
  constructor
  · intro solves
    -- the weights are the values of the free unknowns
    refine ⟨Grid.ofEntries fun k z => x.entry (freeColumn g k) z, ?_⟩
    refine Grid.ext_entries fun j z => ?_
    by_cases free : ∀ i, g.leadingColumn? i ≠ some j
    · obtain ⟨k, rfl⟩ := exists_freeColumn free
      rw [entry_combination_free, Grid.entry_ofEntries]
    · push Not at free
      obtain ⟨i, leading⟩ := free
      have row := solves i z
      rw [Grid.entry_mul, sum_leading_row reduced leading fun j => x.entry j z] at row
      rw [entry_combination_leading reduced d leading, ← row]
      simp only [Grid.entry_ofEntries]
      rw [add_sub_cancel_right]
  · rintro ⟨w, rfl⟩ i z
    exact mul_combination reduced d consistent w i z

end Reduced

end ExactAlgebra
