import ExactAlgebra.Proofs.Numbered.System

/-!
# What the forward pass leaves behind

A forward pass through the first columns multiplies the matrix by an invertible one, and lists the
columns in which it has found a pivot. They are told by the matrix that it leaves: the row with
number `k` has its first entry in the column with number `k` of the list, and when the list is at its
end the rows are zero as far as the pass has come. What stands in the columns that it has not looked
at is left open. When it has looked at all of them, to look for the first entry of each row gives the
same list.

## Main statements

* `Grid.HasPivots.leadingColumn?_eq`, `Grid.HasPivots.pivotColumns_eq` — the pivots of all columns are
  the first entries of the rows;
* `Staircase.hasPivots` — a staircase has the pivots that it lists;
* `Draft.forward_echelon` — the forward pass, for all matrices and any number of columns.

## Main definitions

* `Grid.HasPivots` — the first columns of a grid are in echelon form, with given pivots.
-/

namespace ExactAlgebra

variable {m n : Nat}

/-- **The first columns of a grid are in echelon form**, with their pivots in given columns. What stands
in the columns from number `limit` on is left open. -/
structure Grid.HasPivots (g : Grid m n) (limit : Nat) (columns : List Nat) : Prop where
  ascending : columns.Pairwise (· < ·)
  inside : ∀ c ∈ columns, c < limit
  leading : ∀ k c, columns[k]? = some c → ∃ (i : Fin m) (j : Fin n), i.val = k ∧ j.val = c ∧
    g.entry i j ≠ 0 ∧ ∀ l < j, g.entry i l = 0
  beyond : ∀ i : Fin m, columns.length ≤ i.val → ∀ j : Fin n, j.val < limit → g.entry i j = 0

namespace Grid.HasPivots

variable {g : Grid m n} {columns : List Nat}

/-! ## Pivots are found by looking for the first entries -/

/-- **The first entry of a row is its pivot.** -/
theorem leadingColumn?_eq (pivots : g.HasPivots n columns) (i : Fin m) :
    (g.leadingColumn? i).map Fin.val = columns[i.val]? := by
  cases column : columns[i.val]? with
  | none =>
    have zero := pivots.beyond i (List.getElem?_eq_none_iff.mp column)
    rw [(g.leadingColumn?_eq_none_iff i).mpr fun j => zero j j.isLt]
    rfl
  | some c =>
    obtain ⟨k, j, same, rfl, nonzero, before⟩ := pivots.leading i.val c column
    obtain rfl := Fin.ext same
    rw [(g.leadingColumn?_eq_some_iff k j).mpr ⟨before, nonzero⟩]
    rfl

/-- There is a row for every pivot. -/
theorem length_le {limit : Nat} (pivots : g.HasPivots limit columns) : columns.length ≤ m := by
  by_contra longer
  obtain ⟨i, _, row, _⟩ := pivots.leading m _ (List.getElem?_eq_getElem (not_le.mp longer))
  exact absurd i.isLt (by omega)

/-- **The pivots are found again** by looking for the first entry of each row. -/
theorem pivotColumns_eq (pivots : g.HasPivots n columns) :
    Numbered.pivotColumns ⟨m, n, g⟩ = .ok columns := by
  have last : (List.finRange m).Pairwise fun i k =>
      g.leadingColumn? i = none → g.leadingColumn? k = none := by
    refine (List.pairwise_lt_finRange m).imp fun {i k} lower none => ?_
    have ended := pivots.leadingColumn?_eq i
    rw [none, Option.map_none, eq_comm, List.getElem?_eq_none_iff] at ended
    exact (g.leadingColumn?_eq_none_iff k).mpr fun j => pivots.beyond k (by omega) j j.isLt
  rw [Numbered.pivotColumns_eq]
  refine congrArg Except.ok (List.ext_getElem? fun k => ?_)
  rw [List.getElem?_map, Mat.leadingColumns, getElem?_filterMap_of_last _ _ last]
  by_cases inside : k < m
  · simpa [inside] using pivots.leadingColumn?_eq ⟨k, inside⟩
  · have ended : columns[k]? = none :=
      List.getElem?_eq_none_iff.mpr (pivots.length_le.trans (not_lt.mp inside))
    simp [inside, ended]

end Grid.HasPivots

/-! ## The forward pass -/

/-- The first columns of a grid. -/
def firstColumns {limit : Nat} (fits : limit ≤ n) : List (Fin n) :=
  (List.finRange limit).map (Fin.castLE fits)

section FirstColumns

variable {limit : Nat} (fits : limit ≤ n)

theorem map_val_firstColumns : (firstColumns fits).map Fin.val = List.range limit := by
  rw [firstColumns, List.map_map, range_eq]
  rfl

theorem mem_firstColumns {j : Fin n} : j ∈ firstColumns fits ↔ j.val < limit := by
  rw [← List.mem_range, ← map_val_firstColumns fits, List.mem_map_of_injective Fin.val_injective]

theorem firstColumns_ascending : (firstColumns fits).Pairwise (· < ·) := by
  have numbers : ((firstColumns fits).map Fin.val).Pairwise (· < ·) := by
    rw [map_val_firstColumns]
    exact List.pairwise_lt_range
  exact (List.pairwise_map (R := (· < ·)) (f := Fin.val)).mp numbers

/-- **A staircase in the first columns has the pivots that it lists.** -/
theorem Staircase.hasPivots {g : Grid m n} {pivots : List (Fin m × Fin n)}
    (stairs : Staircase g 0 (firstColumns fits) pivots) :
    g.HasPivots limit (pivots.map fun pivot => pivot.2.val) := by
  have ascending := firstColumns_ascending fits
  have columns : ((pivots.map Prod.snd).map Fin.val).Sublist (List.range limit) := by
    rw [← map_val_firstColumns fits]
    exact stairs.columns_sublist.map Fin.val
  rw [List.map_map] at columns
  refine ⟨List.pairwise_lt_range.sublist columns, ?_, ?_, ?_⟩
  · intro c mem
    exact List.mem_range.mp (columns.subset mem)
  · intro k c column
    rw [List.getElem?_map, Option.map_eq_some_iff] at column
    obtain ⟨⟨i, j⟩, place, rfl⟩ := column
    have mem := List.mem_of_getElem? place
    -- the pivot with number `k` stands in the row with this number
    have row : i.val = k := by
      have rows := congrArg (·[k]?) (Draft.rows_of_staircase stairs)
      simp only [List.getElem?_map, place, Option.map_some] at rows
      obtain ⟨_, same⟩ := List.getElem?_eq_some_iff.mp rows.symm
      simpa using same.symm
    refine ⟨i, j, row, rfl, stairs.entry_pivot_ne_zero mem, fun l before => ?_⟩
    have inside : j ∈ firstColumns fits :=
      stairs.columns_sublist.subset (List.mem_map_of_mem mem)
    refine stairs.entry_before_pivot ascending mem ?_ before
    rw [mem_firstColumns] at inside ⊢
    exact lt_trans before inside
  · intro i below j inside
    rw [List.length_map] at below
    exact stairs.entry_beyond_pivots (by omega) ((mem_firstColumns fits).mpr inside)

end FirstColumns

/-- **The forward pass brings the first columns to echelon form.** It multiplies the matrix by an
invertible one and lists the pivots of what comes out, and with no limit these are the first entries
of the rows. -/
theorem Draft.forward_echelon (g : Grid m n) (journal : Option Journal) {limit : Nat}
    (fits : limit ≤ n) :
    ∃ (h : Grid m n) (after : Option Journal) (columns : List Nat),
      Draft.forward ⟨⟨m, n, g⟩, journal⟩ 0 (List.range limit) =
        .ok (⟨⟨m, n, h⟩, after⟩, columns) ∧
      (∃ T : Matrix (Fin m) (Fin m) ℚ, IsUnit T ∧ h.toMatrix = T * g.toMatrix) ∧
      h.HasPivots limit columns ∧
      (limit = n → Numbered.pivotColumns ⟨m, n, h⟩ = .ok columns) := by
  have begun : (⟨⟨m, n, g⟩, journal⟩ : Draft) =
      (Worksheet.after journal (Reduction.begin g)).draft := by
    rw [Worksheet.after_begin]
    rfl
  have stairs := (Reduction.begin g).forward_staircase 0 (firstColumns fits)
  have pivots := stairs.hasPivots fits
  have reversible := Reduction.isReversible_forward (Reduction.isReversible_begin g) 0
    (firstColumns fits)
  have result : Draft.forward ⟨⟨m, n, g⟩, journal⟩ 0 (List.range limit) = .ok (
      (Worksheet.after journal ((Reduction.begin g).forward 0 (firstColumns fits)).1).draft,
      ((Reduction.begin g).forward 0 (firstColumns fits)).2.map fun pivot => pivot.2.val) := by
    rw [← map_val_firstColumns fits, begun, Draft.forward_draft, Worksheet.forward_after]
  refine ⟨_, _, _, result, ⟨_, Reduction.isUnit_transform reversible, Reduction.toMatrix_grid _⟩,
    pivots, ?_⟩
  rintro rfl
  exact pivots.pivotColumns_eq

/-- A column is skipped, then two rows are exchanged. -/
theorem Draft.forward_echelon_exchanged :
    3 ≤ 3 ∧ ∃ (h : Grid 2 3) (after : Option Journal),
      Draft.forward ⟨⟨2, 3, #v[#v[0, 0, 2], #v[0, 3, 1]]⟩, none⟩ 0 (List.range 3) =
        .ok (⟨⟨2, 3, h⟩, after⟩, [1, 2]) ∧
      (∃ T : Matrix (Fin 2) (Fin 2) ℚ, IsUnit T ∧
        h.toMatrix = T * Grid.toMatrix #v[#v[0, 0, 2], #v[0, 3, 1]]) ∧
      h.HasPivots 3 [1, 2] ∧ Numbered.pivotColumns ⟨2, 3, h⟩ = .ok [1, 2] := by
  obtain ⟨h, after, columns, result, transformed, pivots, found⟩ :=
    Draft.forward_echelon #v[#v[0, 0, 2], #v[0, 3, 1]] none (le_refl 3)
  have here : columns = [1, 2] := by
    have value : (Draft.forward ⟨⟨2, 3, #v[#v[0, 0, 2], #v[0, 3, 1]]⟩, none⟩ 0
        (List.range 3)).map Prod.snd = .ok [1, 2] := by decide
    rw [result] at value
    exact Except.ok.inj value
  subst here
  exact ⟨le_rfl, h, after, result, transformed, pivots, found rfl⟩

end ExactAlgebra
