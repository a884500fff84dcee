import ExactAlgebra.Proofs.Elimination.RowOperation

/-!
# The steps of an elimination

An elimination is made of three steps: a pivot row is exchanged into its place, scaled, and used to
clear its column in other rows. This module says what each step does to the entries, to the
determinant, and that it can be undone.

## Main statements

* `entry_exchange`, `entry_normalize`, `entry_clear` — the entries after a step;
* `findPivot?_eq_some`, `findPivot?_eq_none` — which row is found for a column;
* `det_exchange`, `det_clear` — what a step does to the determinant of a square.
-/

namespace ExactAlgebra

namespace Reduction

variable {m n : Nat} {start : Grid m n}

/-! ## The search for a pivot -/

theorem findPivot?_eq_some {g : Grid m n} {col : Fin n} {first : Nat} {found : Fin m}
    (search : findPivot? g col first = some found) :
    first ≤ found.val ∧ g.entry found col ≠ 0 := by
  simpa using List.find?_some search

theorem findPivot?_eq_none {g : Grid m n} {col : Fin n} {first : Nat}
    (search : findPivot? g col first = none) (i : Fin m) (below : first ≤ i.val) :
    g.entry i col = 0 := by
  have refused := List.find?_eq_none.mp search i (List.mem_finRange i)
  simpa [below] using refused

/-! ## Entries after a step -/

theorem entry_exchange (r : Reduction start) (i j k : Fin m) (l : Fin n) :
    (r.exchange i j).grid.entry k l = r.grid.entry (Equiv.swap i j k) l := by
  rw [exchange]
  split
  · rename_i same
    rw [same, Equiv.swap_self, Equiv.refl_apply]
  · exact RowOperation.entry_apply_swap r.grid i j k l

/-- The entries of a row that is exchanged with none of its own kind. -/
theorem entry_exchange_of_ne (r : Reduction start) {i j k : Fin m} (hi : k ≠ i) (hj : k ≠ j)
    (l : Fin n) : (r.exchange i j).grid.entry k l = r.grid.entry k l := by
  rw [entry_exchange, Equiv.swap_apply_of_ne_of_ne hi hj]

theorem entry_normalize (r : Reduction start) (row k : Fin m) (col l : Fin n) :
    (r.normalize row col).grid.entry k l =
      if k = row then r.grid.entry k l / r.grid.entry row col else r.grid.entry k l := by
  rw [normalize]
  split
  · rename_i one
    simp [one]
  · refine (RowOperation.entry_apply_scale r.grid row k _ l).trans ?_
    rw [mul_one_div]

/-- **Clearing subtracts multiples of the pivot row** from the rows in the list, and from no
others. -/
theorem entry_clear (r : Reduction start) {row : Fin m} (col : Fin n) (pivot : ℚ)
    {others : List (Fin m)} (apart : row ∉ others) (once : others.Nodup) (k : Fin m) (l : Fin n) :
    (r.clear row col pivot others).grid.entry k l =
      if k ∈ others then r.grid.entry k l - r.grid.entry k col / pivot * r.grid.entry row l
      else r.grid.entry k l := by
  rw [clear]
  induction others generalizing r with
  | nil => simp
  | cons i rest ih =>
    rw [List.mem_cons, not_or] at apart
    rw [List.nodup_cons] at once
    -- the entries after the first row is cleared, whether or not that takes an operation
    have first : ∀ (k : Fin m) (l : Fin n),
        (if r.grid.entry i col = 0 then r
          else r.perform (.add i row (-r.grid.entry i col / pivot))).grid.entry k l =
          if k = i then r.grid.entry k l - r.grid.entry k col / pivot * r.grid.entry row l
          else r.grid.entry k l := by
      intro k l
      split
      · rename_i zero
        split
        · rename_i here
          rw [here, zero]
          ring
        · rfl
      · refine (RowOperation.entry_apply_add r.grid i row k _ l).trans ?_
        split
        · rename_i here
          rw [here]
          ring
        · rfl
    rw [List.foldl_cons, ih _ apart.2 once.2, first, first, first, if_neg apart.1]
    by_cases here : k = i
    · subst here
      simp [once.1]
    · simp [here]

/-! ## Rows of a clearing -/

theorem mem_rowsBelow {row i : Fin m} : i ∈ rowsBelow row ↔ row < i := by
  simp [rowsBelow]

theorem mem_rowsAbove {row i : Fin m} : i ∈ rowsAbove row ↔ i < row := by
  simp [rowsAbove]

theorem nodup_rowsBelow (row : Fin m) : (rowsBelow row).Nodup :=
  (List.nodup_finRange m).filter _

theorem nodup_rowsAbove (row : Fin m) : (rowsAbove row).Nodup :=
  (List.nodup_finRange m).filter _

theorem entry_clear_below (r : Reduction start) (row : Fin m) (col : Fin n) (pivot : ℚ)
    (k : Fin m) (l : Fin n) :
    (r.clear row col pivot (rowsBelow row)).grid.entry k l =
      if row < k then r.grid.entry k l - r.grid.entry k col / pivot * r.grid.entry row l
      else r.grid.entry k l := by
  rw [entry_clear r col pivot (by simp [mem_rowsBelow]) (nodup_rowsBelow row)]
  simp only [mem_rowsBelow]

theorem entry_clear_above (r : Reduction start) (row : Fin m) (col : Fin n) (pivot : ℚ)
    (k : Fin m) (l : Fin n) :
    (r.clear row col pivot (rowsAbove row)).grid.entry k l =
      if k < row then r.grid.entry k l - r.grid.entry k col / pivot * r.grid.entry row l
      else r.grid.entry k l := by
  rw [entry_clear r col pivot (by simp [mem_rowsAbove]) (nodup_rowsAbove row)]
  simp only [mem_rowsAbove]

/-! ## Steps that can be undone -/

theorem IsReversible.exchange {r : Reduction start} (before : r.IsReversible) (i j : Fin m) :
    (r.exchange i j).IsReversible := by
  rw [Reduction.exchange]
  split
  · exact before
  · exact isReversible_perform before (RowOperation.isReversible_swap i j)

theorem IsReversible.normalize {r : Reduction start} (before : r.IsReversible) {row : Fin m}
    {col : Fin n} (nonzero : r.grid.entry row col ≠ 0) : (r.normalize row col).IsReversible := by
  rw [Reduction.normalize]
  split
  · exact before
  · exact isReversible_perform before
      (RowOperation.isReversible_scale (one_div_ne_zero nonzero))

/-- What holds before a clearing, and is kept by adding a multiple of the pivot row to one of the
rows to be cleared, holds after the clearing. -/
theorem clear_induction {motive : Reduction start → Prop} {r : Reduction start} {row : Fin m}
    (col : Fin n) (pivot : ℚ) {others : List (Fin m)} (before : motive r)
    (step : ∀ r, ∀ i ∈ others, ∀ factor, motive r → motive (r.perform (.add i row factor))) :
    motive (r.clear row col pivot others) := by
  rw [clear]
  induction others generalizing r with
  | nil => exact before
  | cons i rest ih =>
    rw [List.foldl_cons]
    refine ih ?_ fun r k mem => step r k (List.mem_cons_of_mem i mem)
    split
    · exact before
    · exact step r i List.mem_cons_self _ before

theorem IsReversible.clear {r : Reduction start} (before : r.IsReversible) {row : Fin m}
    (col : Fin n) (pivot : ℚ) {others : List (Fin m)} (apart : row ∉ others) :
    (r.clear row col pivot others).IsReversible := by
  refine clear_induction col pivot before ?_
  intro r i mem factor reversible
  refine isReversible_perform reversible (RowOperation.isReversible_add ?_ factor)
  rintro rfl
  exact apart mem

/-! ## Determinants after a step -/

variable {square : Grid m m}

theorem det_perform (r : Reduction square) (op : RowOperation m) :
    (r.perform op).grid.toMatrix.det = op.determinant * r.grid.toMatrix.det := by
  rw [perform, RowOperation.toMatrix_apply, Matrix.det_mul, RowOperation.det_matrix]

theorem det_exchange (r : Reduction square) (i j : Fin m) :
    (r.exchange i j).grid.toMatrix.det = (if i = j then 1 else -1) * r.grid.toMatrix.det := by
  rw [exchange]
  split
  · rw [one_mul]
  · rename_i apart
    rw [det_perform, RowOperation.determinant, if_neg apart]

theorem det_clear (r : Reduction square) {row : Fin m} (col : Fin m) (pivot : ℚ)
    {others : List (Fin m)} (apart : row ∉ others) :
    (r.clear row col pivot others).grid.toMatrix.det = r.grid.toMatrix.det := by
  -- what is kept is that the determinant has not changed since the clearing began
  refine clear_induction (motive := fun s => s.grid.toMatrix.det = r.grid.toMatrix.det)
    col pivot rfl ?_
  intro s i mem factor same
  have other : i ≠ row := by
    rintro rfl
    exact apart mem
  rw [det_perform, RowOperation.determinant, if_neg other, one_mul, same]

end Reduction

end ExactAlgebra
