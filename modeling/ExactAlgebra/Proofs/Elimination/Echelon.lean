import ExactAlgebra.Proofs.Elimination.Staircase
import Mathlib.LinearAlgebra.Matrix.Echelon.Pivot

/-!
# Echelon forms and the rank

A staircase in ascending columns is a row echelon form, and its pivots are the leading entries of
the rows. So both passes together end in the reduced row echelon form, and as they multiply by an
invertible matrix, the number of rows of that form that are not zero is the rank of the grid.

## Main statements

* `Staircase.echelon`, `Staircase.leading_mem` — a staircase is an echelon form;
* `Staircase.entry_before_pivot`, `Staircase.entry_beyond_pivots` — where its entries are zero;
* `isReducedRowEchelon_reducedEchelon`, `isUnit_transform_reducedEchelon` — the reduced form, and
  how it is reached;
* `Grid.leadingColumn?_eq_some_iff` — where the first entry of a row is found;
* `Grid.nonzeroRows_eq_rank`, `Grid.rank_eq` — the rank.
-/

namespace ExactAlgebra

open Matrix

variable {m n : Nat}

namespace Staircase

variable {g : Grid m n} {row : Nat} {cols : List (Fin n)} {pivots : List (Fin m × Fin n)}

/-- **A staircase is an echelon form**: where a row has no entry yet, a lower row has none
either. -/
theorem echelon (stairs : Staircase g row cols pivots) (ascending : cols.Pairwise (· < ·))
    {i k : Fin m} (below : row ≤ i.val) (lower : i < k) {j : Fin n} (mem : j ∈ cols)
    (before : ∀ l ∈ cols, l < j → g.entry i l = 0) : g.entry k j = 0 := by
  induction stairs with
  | nil => cases mem
  | skip zero _ ih =>
    obtain ⟨_, ascending⟩ := List.pairwise_cons.mp ascending
    rcases List.mem_cons.mp mem with rfl | mem
    · exact zero k (by omega)
    · exact ih ascending below mem fun l here => before l (List.mem_cons_of_mem _ here)
  | @pivot top col rest pivots nonzero zero _ ih =>
    obtain ⟨first, ascending⟩ := List.pairwise_cons.mp ascending
    rcases List.mem_cons.mp mem with rfl | mem
    · exact zero k (by omega)
    · -- the pivot row itself has its entry in an earlier column
      have apart : top ≠ i := by
        rintro rfl
        exact nonzero (before col List.mem_cons_self (first j mem))
      have under : top.val + 1 ≤ i.val := by
        have : top.val ≠ i.val := Fin.val_ne_of_ne apart
        omega
      exact ih ascending under mem fun l here => before l (List.mem_cons_of_mem _ here)

/-- **The first entry of a row is a pivot.** -/
theorem leading_mem (stairs : Staircase g row cols pivots) (ascending : cols.Pairwise (· < ·))
    {i : Fin m} (below : row ≤ i.val) {j : Fin n} (mem : j ∈ cols) (nonzero : g.entry i j ≠ 0)
    (before : ∀ l ∈ cols, l < j → g.entry i l = 0) : (i, j) ∈ pivots := by
  induction stairs with
  | nil => cases mem
  | skip zero _ ih =>
    obtain ⟨_, ascending⟩ := List.pairwise_cons.mp ascending
    rcases List.mem_cons.mp mem with rfl | mem
    · exact absurd (zero i below) nonzero
    · exact ih ascending below mem fun l here => before l (List.mem_cons_of_mem _ here)
  | @pivot top col rest pivots present zero _ ih =>
    obtain ⟨first, ascending⟩ := List.pairwise_cons.mp ascending
    rcases eq_or_lt_of_le (show top ≤ i from below) with rfl | under
    · rcases List.mem_cons.mp mem with rfl | mem
      · exact List.mem_cons_self
      · exact absurd (before col List.mem_cons_self (first j mem)) present
    · refine List.mem_cons_of_mem _ (ih ascending under ?_ fun l here =>
        before l (List.mem_cons_of_mem _ here))
      rcases List.mem_cons.mp mem with rfl | mem
      · exact absurd (zero i under) nonzero
      · exact mem

/-- The columns of the pivots are some of the given ones, in the same order. -/
theorem columns_sublist (stairs : Staircase g row cols pivots) :
    (pivots.map Prod.snd).Sublist cols := by
  induction stairs with
  | nil => exact List.Sublist.slnil
  | skip _ _ ih => exact ih.cons _
  | pivot _ _ _ ih => exact ih.cons_cons _

theorem entry_pivot_ne_zero (stairs : Staircase g row cols pivots) {p : Fin m × Fin n}
    (mem : p ∈ pivots) : g.entry p.1 p.2 ≠ 0 := by
  induction stairs with
  | nil => cases mem
  | skip _ _ ih => exact ih mem
  | pivot nonzero _ _ ih =>
    rcases List.mem_cons.mp mem with rfl | mem
    · exact nonzero
    · exact ih mem

/-- **Before a pivot its row is zero.** -/
theorem entry_before_pivot (stairs : Staircase g row cols pivots)
    (ascending : cols.Pairwise (· < ·)) {p : Fin m × Fin n} (mem : p ∈ pivots) {l : Fin n}
    (here : l ∈ cols) (before : l < p.2) : g.entry p.1 l = 0 := by
  induction stairs with
  | nil => cases mem
  | skip zero tail ih =>
    obtain ⟨_, ascending⟩ := List.pairwise_cons.mp ascending
    rcases List.mem_cons.mp here with rfl | here
    · exact zero p.1 (tail.row_le mem)
    · exact ih ascending mem here
  | pivot _ zero tail ih =>
    obtain ⟨first, ascending⟩ := List.pairwise_cons.mp ascending
    rcases List.mem_cons.mp mem with rfl | lower
    · rcases List.mem_cons.mp here with rfl | here
      · exact absurd before (lt_irrefl _)
      · exact absurd before (first l here).not_gt
    · rcases List.mem_cons.mp here with rfl | here
      · exact zero p.1 (tail.row_le lower)
      · exact ih ascending lower here

/-- **Below the pivots there is nothing** in the given columns. -/
theorem entry_beyond_pivots (stairs : Staircase g row cols pivots) {i : Fin m}
    (beyond : row + pivots.length ≤ i.val) {l : Fin n} (here : l ∈ cols) : g.entry i l = 0 := by
  induction stairs with
  | nil => cases here
  | skip zero _ ih =>
    rcases List.mem_cons.mp here with rfl | here
    · exact zero i (by omega)
    · exact ih beyond here
  | pivot _ zero _ ih =>
    rw [List.length_cons] at beyond
    rcases List.mem_cons.mp here with rfl | here
    · exact zero i (by omega)
    · exact ih (by omega) here

end Staircase

/-! ## The reduced echelon form -/

theorem mem_pivotColumns (i : Fin m) (j : Fin n) : j ∈ pivotColumns m n := by
  rw [pivotColumns, if_neg (by have := i.isLt; omega)]
  exact List.mem_finRange j

theorem pivotColumns_ascending (m n : Nat) : (pivotColumns m n).Pairwise (· < ·) := by
  rw [pivotColumns]
  split
  · exact List.Pairwise.nil
  · exact List.pairwise_lt_finRange n

/-- **Both passes end in the reduced row echelon form.** -/
theorem isReducedRowEchelon_reducedEchelon (g : Grid m n) :
    (reducedEchelon g).grid.toMatrix.IsReducedRowEchelon := by
  have forward := (Reduction.begin g).forward_staircase 0 (pivotColumns m n)
  have stairs := Reduction.backward_staircase forward
  have ascending := pivotColumns_ascending m n
  have unit : ∀ {i : Fin m} {c : Fin n}, (reducedEchelon g).grid.toMatrix.IsLeadingEntry i c →
      ∀ k, (reducedEchelon g).grid.entry k c = if k = i then 1 else 0 := by
    intro i c leading k
    refine Reduction.backward_unit (p := (i, c)) forward ?_ k
    exact stairs.leading_mem ascending (Nat.zero_le _) (mem_pivotColumns i c) leading.2
      fun l _ lt => leading.1 l lt
  refine ⟨?_, ?_, ?_⟩
  · intro i k lower j before
    exact stairs.echelon ascending (Nat.zero_le _) lower (mem_pivotColumns i j)
      fun l _ lt => before l lt
  · intro i c leading
    rw [Grid.toMatrix_apply, unit leading, if_pos rfl]
  · intro i k c lower leading
    rw [Grid.toMatrix_apply, unit leading, if_neg lower.ne]

/-- **The reduced form is reached by an invertible matrix.** -/
theorem isUnit_transform_reducedEchelon (g : Grid m n) : IsUnit (reducedEchelon g).transform := by
  have forward := (Reduction.begin g).forward_staircase 0 (pivotColumns m n)
  refine Reduction.isUnit_transform (Reduction.isReversible_backward forward ?_)
  exact Reduction.isReversible_forward (Reduction.isReversible_begin g) 0 (pivotColumns m n)

/-! ## Leading entries -/

namespace Grid

/-- **The first entry of a row is its leading entry.** -/
theorem leadingColumn?_eq_some_iff (g : Grid m n) (i : Fin m) (c : Fin n) :
    g.leadingColumn? i = some c ↔ g.toMatrix.IsLeadingEntry i c := by
  rw [leadingColumn?, List.find?_eq_some_iff_getElem]
  simp only [List.length_finRange, List.getElem_finRange, Bool.not_eq_true', decide_eq_true_eq,
    decide_eq_false_iff_not, not_not]
  constructor
  · rintro ⟨nonzero, k, inside, rfl, before⟩
    exact ⟨fun j lt => before j.val lt, nonzero⟩
  · rintro ⟨before, nonzero⟩
    exact ⟨nonzero, c.val, c.isLt, rfl, fun k lt => before ⟨k, by omega⟩ lt⟩

theorem leadingColumn?_eq_none_iff (g : Grid m n) (i : Fin m) :
    g.leadingColumn? i = none ↔ ∀ j, g.entry i j = 0 := by
  simp [leadingColumn?]

/-- The leading columns of the rows of an echelon form are its pivots. -/
theorem isPivotedBy (g : Grid m n) (echelon : g.toMatrix.IsRowEchelon) :
    g.toMatrix.IsPivotedBy fun i => (g.leadingColumn? i).elim ⊤ WithTop.some := by
  refine ⟨echelon, fun i => ?_⟩
  cases leading : g.leadingColumn? i with
  | none =>
    refine ⟨fun j _ => (g.leadingColumn?_eq_none_iff i).mp leading j, ?_⟩
    rintro c ⟨⟩
  | some c =>
    obtain ⟨before, nonzero⟩ := (g.leadingColumn?_eq_some_iff i c).mp leading
    refine ⟨fun j lt => before j (WithTop.coe_lt_coe.mp lt), ?_⟩
    intro c' same
    rwa [← WithTop.coe_injective same]

/-! ## The rank -/

/-- The number of positions with a property. -/
theorem length_filter_finRange (p : Fin m → Bool) :
    ((List.finRange m).filter p).length = (Finset.univ.filter fun i => p i = true).card := by
  rw [← List.toFinset_card_of_nodup ((List.nodup_finRange m).filter p)]
  congr 1
  ext i
  simp

/-- **An echelon form has as many rows that are not zero as its rank.** -/
theorem nonzeroRows_eq_rank (g : Grid m n) (echelon : g.toMatrix.IsRowEchelon) :
    nonzeroRows g = g.toMatrix.rank := by
  rw [(g.isPivotedBy echelon).rank_eq, nonzeroRows, length_filter_finRange]
  congr 1
  ext i
  rw [Finset.mem_filter, Finset.mem_filter, Bool.not_eq_true', ← Bool.not_eq_true, isZeroRow_iff,
    ← leadingColumn?_eq_none_iff]
  cases g.leadingColumn? i <;> simp

/-- **The rank of a grid is that of its matrix.** -/
theorem rank_eq (g : Grid m n) : g.rank = g.toMatrix.rank := by
  rw [rank, nonzeroRows_eq_rank _ (isReducedRowEchelon_reducedEchelon g).isRowEchelon,
    Reduction.toMatrix_grid]
  have invertible := (Matrix.isUnit_iff_isUnit_det _).mp (isUnit_transform_reducedEchelon g)
  exact Matrix.rank_mul_eq_right_of_isUnit_det _ _ invertible

end Grid

end ExactAlgebra
