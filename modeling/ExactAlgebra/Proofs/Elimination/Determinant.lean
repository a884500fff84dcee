import ExactAlgebra.Elimination.Determinant
import ExactAlgebra.Proofs.Elimination.Sweep
import Mathlib.LinearAlgebra.Matrix.Block

/-!
# Elimination computes the determinant

After a number of columns has been triangulated, the exchanges counted so far and the determinant of
the grid at hand give the determinant of the grid at the start; the product so far is that of the
diagonal entries above the block that is left; and the columns are clear below the diagonal. This
invariant holds before the first column, and every column that has a pivot keeps it. It gives the
determinant at the end, and shows that it is zero if a column has no pivot.

## Main statements

* `det_eq_zero_of_no_pivot` — a square in which a column has no pivot;
* `Triangulation.Sound.step` — a column with a pivot keeps the invariant;
* `Triangulation.Sound.value_run` — from there on, the rest of the columns give the determinant;
* `Grid.det_eq` — the determinant by elimination, in all sizes.

## Main definitions

* `Triangulation.Sound` — the invariant.
-/

namespace ExactAlgebra

variable {n : Nat} {start : Grid n n}

/-- **A square without a pivot in some column has determinant zero**: its rows from the column on
are zero in all columns up to it. -/
theorem det_eq_zero_of_no_pivot {a : Matrix (Fin n) (Fin n) ℚ} (col : Fin n)
    (cleared : ∀ i j, col ≤ i → j < col → a i j = 0) (zero : ∀ i, col ≤ i → a i col = 0) :
    a.det = 0 := by
  -- the rows from this column on make up a block, and its first column is zero
  rw [Matrix.twoBlockTriangular_det _ (fun i : Fin n => i < col) ?_]
  · have column : ∀ i : { i : Fin n // ¬ i < col },
        a.toSquareBlockProp (fun i => ¬ i < col) i ⟨col, lt_irrefl col⟩ = 0 :=
      fun i => zero i.val (not_lt.mp i.property)
    rw [Matrix.det_eq_zero_of_column_eq_zero _ column, mul_zero]
  · intro i under j early
    exact cleared i j (not_lt.mp under) early

namespace Triangulation

/-- **What a triangulation has found out** when `done` columns are behind it. -/
structure Sound (t : Triangulation start) (done : Nat) : Prop where
  /-- The determinant is that of the grid at hand, up to the exchanges. -/
  sign : start.toMatrix.det = (if t.odd then -1 else 1) * t.reduction.grid.toMatrix.det
  /-- The product is that of the pivots. -/
  product : t.product = ∏ i : Fin n with i.val < done, t.reduction.grid.entry i i
  /-- The columns are clear below the diagonal. -/
  cleared : ∀ i j : Fin n, j.val < done → j < i → t.reduction.grid.entry i j = 0
  running : t.stuck = none

theorem sound_begin (start : Grid n n) : Sound ⟨Reduction.begin start, false, 1, none⟩ 0 where
  sign := by simp [Reduction.begin]
  product := by simp
  cleared := by simp
  running := rfl

/-- The positions up to one more than a number. -/
theorem filter_lt_succ (col : Fin n) :
    Finset.univ.filter (fun i : Fin n => i.val < col.val + 1) =
      insert col (Finset.univ.filter fun i : Fin n => i.val < col.val) := by
  ext i
  simp only [Finset.mem_filter, Finset.mem_univ, true_and, Finset.mem_insert, Fin.ext_iff]
  omega

/-- **A column with a pivot keeps the invariant.** -/
theorem Sound.step {t : Triangulation start} {col found : Fin n} (before : t.Sound col.val)
    (search : Reduction.findPivot? t.reduction.grid col col.val = some found) :
    let exchanged := t.reduction.exchange col found
    Sound
      { reduction := exchanged.clear col col (exchanged.grid.entry col col)
          (Reduction.rowsBelow col)
        odd := if col = found then t.odd else ! t.odd
        product := t.product * exchanged.grid.entry col col
        stuck := none : Triangulation start }
      (col.val + 1) := by
  intro exchanged
  obtain ⟨below, nonzero⟩ := Reduction.findPivot?_eq_some search
  have pivot : exchanged.grid.entry col col ≠ 0 := by
    rwa [Reduction.entry_exchange, Equiv.swap_apply_left]
  -- rows above the pivot row keep their entries
  have above : ∀ i j : Fin n, i < col →
      (exchanged.clear col col (exchanged.grid.entry col col)
        (Reduction.rowsBelow col)).grid.entry i j = t.reduction.grid.entry i j := by
    intro i j lt
    rw [Reduction.entry_clear_below, if_neg (not_lt.mpr lt.le)]
    refine Reduction.entry_exchange_of_ne _ lt.ne ?_ j
    rintro rfl
    omega
  -- the other rows are zero in the columns that are clear already
  have zero : ∀ i j : Fin n, col ≤ i → j.val < col.val →
      exchanged.grid.entry i j = 0 := by
    intro i j le early
    rw [Reduction.entry_exchange, Equiv.swap_apply_def]
    refine before.cleared _ j early ?_
    split
    · omega
    · split <;> omega
  refine ⟨?_, ?_, ?_, rfl⟩
  · -- only the exchange has an effect on the determinant
    dsimp only
    rw [Reduction.det_clear _ _ _ (by simp [Reduction.mem_rowsBelow]), Reduction.det_exchange,
      before.sign]
    by_cases same : col = found
    · rw [if_pos same, if_pos same, one_mul]
    · rw [if_neg same, if_neg same]
      cases t.odd <;> simp
  · -- the new pivot joins the product, the earlier ones are still in their places
    dsimp only
    rw [filter_lt_succ, Finset.prod_insert (by simp), mul_comm, before.product]
    congr 1
    · rw [Reduction.entry_clear_below, if_neg (lt_irrefl col)]
    · refine Finset.prod_congr rfl fun i mem => (above i i ?_).symm
      simpa using mem
  · intro i j lt diagonal
    -- an earlier column is clear already, and this one has just been cleared
    rcases Nat.lt_succ_iff_lt_or_eq.mp lt with early | here
    · rcases lt_or_ge i col with upper | lower
      · rw [above i j upper, before.cleared i j early diagonal]
      · rw [Reduction.entry_clear_below, zero i j lower early, zero col j le_rfl early]
        simp
    · obtain rfl : j = col := Fin.ext here
      rw [Reduction.entry_clear_below, if_pos diagonal, div_mul_cancel₀ _ pivot, sub_self]

/-- **A column without a pivot makes the determinant zero**, as that of the grid at hand is. -/
theorem Sound.det_eq_zero {t : Triangulation start} {col : Fin n} (before : t.Sound col.val)
    (search : Reduction.findPivot? t.reduction.grid col col.val = none) :
    start.toMatrix.det = 0 := by
  rw [before.sign, det_eq_zero_of_no_pivot col]
  · rw [mul_zero]
  · intro i j below early
    exact before.cleared i j early (early.trans_le below)
  · exact fun i below => Reduction.findPivot?_eq_none search i below

/-- After the last column the grid is triangular, and the product is that of its diagonal. -/
theorem Sound.value_eq {t : Triangulation start} (done : t.Sound n) :
    t.value = start.toMatrix.det := by
  have triangular : t.reduction.grid.toMatrix.IsUpperTriangular :=
    fun i j lt => done.cleared i j j.isLt lt
  have diagonal : t.product = ∏ i, t.reduction.grid.entry i i := by
    simpa using done.product
  rw [value, done.running, done.sign, Matrix.det_of_isUpperTriangular triangular, diagonal]
  cases t.odd <;> simp

/-- **The rest of the columns give the determinant**, from any point on where the invariant
holds. -/
theorem Sound.value_run {t : Triangulation start} {done : Nat} {cols : List (Fin n)}
    (before : t.Sound done) (order : cols.map Fin.val = List.range' done cols.length)
    (all : done + cols.length = n) : (t.run cols).value = start.toMatrix.det := by
  -- along the columns that are left, with the invariant for those behind
  induction cols generalizing t done with
  | nil =>
    obtain rfl : done = n := by simpa using all
    exact before.value_eq
  | cons col rest ih =>
    simp only [List.map_cons, List.length_cons, List.range'_succ, List.cons.injEq] at order
    obtain ⟨rfl, order⟩ := order
    rw [run]
    split
    · rename_i search
      exact (before.det_eq_zero search).symm
    · rename_i found search
      refine ih (before.step search) order ?_
      rw [List.length_cons] at all
      omega

end Triangulation

/-- **The determinant by elimination**, in all sizes. -/
theorem Grid.det_eq (g : Grid n n) : g.det = g.toMatrix.det := by
  match n, g with
  | 0, g => simp [Grid.det]
  | 1, g => simp [Grid.det]
  | 2, g => simp [Grid.det, Matrix.det_fin_two]
  | n + 3, g =>
    refine (Triangulation.sound_begin g).value_run ?_ (by simp)
    rw [List.map_coe_finRange_eq_range, List.range_eq_range', List.length_finRange]

end ExactAlgebra
