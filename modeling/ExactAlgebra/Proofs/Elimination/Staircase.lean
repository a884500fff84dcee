import ExactAlgebra.Proofs.Elimination.Sweep

/-!
# Both passes of an elimination

The forward pass leaves a staircase: going through the columns from left to right, a column either
has no entry from the current row on, or it has a pivot in the current row and nothing below, and
the staircase goes on one row further down. The relation `Staircase` says that by the same recursion
as the pass. Both passes leave alone every column that is zero from the current row on; this is
what keeps the finished part of the grid as it is while the rest is worked on.

## Main statements

* `forward_staircase` — the forward pass leaves a staircase with the pivots that it lists;
* `backward_staircase`, `backward_unit` — the backward pass keeps the staircase, and makes every
  pivot the only entry of its column, and one;
* `isReversible_forward`, `isReversible_backward` — both passes can be undone.

## Main definitions

* `Staircase` — the form that the forward pass leaves.
-/

namespace ExactAlgebra

variable {m n : Nat}

/-- **A staircase** in the given columns, from a row on, with its pivots. -/
inductive Staircase (g : Grid m n) : Nat → List (Fin n) → List (Fin m × Fin n) → Prop where
  | nil {row : Nat} : Staircase g row [] []
  | skip {row : Nat} {col : Fin n} {rest : List (Fin n)} {pivots : List (Fin m × Fin n)} :
      (∀ i : Fin m, row ≤ i.val → g.entry i col = 0) →
      Staircase g row rest pivots → Staircase g row (col :: rest) pivots
  | pivot {top : Fin m} {col : Fin n} {rest : List (Fin n)} {pivots : List (Fin m × Fin n)} :
      g.entry top col ≠ 0 → (∀ i : Fin m, top < i → g.entry i col = 0) →
      Staircase g (top.val + 1) rest pivots → Staircase g top.val (col :: rest) ((top, col) :: pivots)

namespace Staircase

variable {g : Grid m n} {row : Nat} {cols : List (Fin n)} {pivots : List (Fin m × Fin n)}

/-- Below the last row every grid is a staircase without pivots. -/
theorem of_no_rows (g : Grid m n) (full : m ≤ row) (cols : List (Fin n)) :
    Staircase g row cols [] := by
  induction cols with
  | nil => exact .nil
  | cons col rest ih =>
    refine .skip ?_ ih
    intro i below
    omega

/-- A staircase from a row on is a matter of that row and those below it. -/
theorem congr (stairs : Staircase g row cols pivots) {h : Grid m n}
    (same : ∀ i : Fin m, row ≤ i.val → ∀ j, h.entry i j = g.entry i j) :
    Staircase h row cols pivots := by
  induction stairs with
  | nil => exact .nil
  | skip zero _ ih =>
    refine .skip ?_ (ih same)
    intro i below
    rw [same i below]
    exact zero i below
  | pivot nonzero zero _ ih =>
    refine .pivot ?_ ?_ (ih fun i below => same i (by omega))
    · rwa [same _ le_rfl]
    · intro i below
      rw [same i below.le]
      exact zero i below

/-- The pivots of a staircase are in the rows from the first one on. -/
theorem row_le (stairs : Staircase g row cols pivots) {p : Fin m × Fin n} (mem : p ∈ pivots) :
    row ≤ p.1.val := by
  induction stairs with
  | nil => cases mem
  | skip _ _ ih => exact ih mem
  | pivot _ _ _ ih =>
    rcases List.mem_cons.mp mem with rfl | mem
    · exact le_rfl
    · have := ih mem
      omega

end Staircase

namespace Reduction

variable {start : Grid m n}

/-! ## The forward pass -/

/-- Exchanging a row with one further down leaves a column alone in which both are zero. -/
theorem entry_exchange_of_zero (r : Reduction start) {i j : Fin m} {l : Fin n}
    (hi : r.grid.entry i l = 0) (hj : r.grid.entry j l = 0) (k : Fin m) :
    (r.exchange i j).grid.entry k l = r.grid.entry k l := by
  rw [entry_exchange, Equiv.swap_apply_def]
  split
  · rename_i same
    rw [same, hi, hj]
  · split
    · rename_i same
      rw [same, hi, hj]
    · rfl

/-- The grid after one column of the forward pass that has a pivot. -/
def clearBelow (r : Reduction start) (top found : Fin m) (col : Fin n) : Reduction start :=
  (r.exchange top found).clear top col ((r.exchange top found).grid.entry top col) (rowsBelow top)

section Column

variable (r : Reduction start) {top found : Fin m} {col : Fin n}

theorem entry_clearBelow_pivot (nonzero : r.grid.entry found col ≠ 0) :
    (r.clearBelow top found col).grid.entry top col ≠ 0 := by
  rwa [clearBelow, entry_clear_below, if_neg (lt_irrefl top), entry_exchange, Equiv.swap_apply_left]

theorem entry_clearBelow_zero (nonzero : r.grid.entry found col ≠ 0) {i : Fin m} (below : top < i) :
    (r.clearBelow top found col).grid.entry i col = 0 := by
  have pivot : (r.exchange top found).grid.entry top col ≠ 0 := by
    rwa [entry_exchange, Equiv.swap_apply_left]
  rw [clearBelow, entry_clear_below, if_pos below, div_mul_cancel₀ _ pivot, sub_self]

/-- The rows above the pivot row stay as they are. -/
theorem entry_clearBelow_above (under : top ≤ found) {i : Fin m} (above : i < top) (l : Fin n) :
    (r.clearBelow top found col).grid.entry i l = r.grid.entry i l := by
  rw [clearBelow, entry_clear_below, if_neg (not_lt.mpr above.le)]
  exact r.entry_exchange_of_ne above.ne (above.trans_le under).ne l

/-- A column that is zero from the pivot row on stays as it is. -/
theorem entry_clearBelow_of_zero (col : Fin n) (under : top ≤ found) {l : Fin n}
    (zero : ∀ i : Fin m, top ≤ i → r.grid.entry i l = 0) (k : Fin m) :
    (r.clearBelow top found col).grid.entry k l = r.grid.entry k l := by
  have exchanged : ∀ k, (r.exchange top found).grid.entry k l = r.grid.entry k l :=
    r.entry_exchange_of_zero (zero top le_rfl) (zero found under)
  rw [clearBelow, entry_clear_below, exchanged, exchanged, zero top le_rfl, mul_zero, sub_zero,
    ite_self]

theorem IsReversible.clearBelow {r : Reduction start} (before : r.IsReversible) (top found : Fin m)
    (col : Fin n) : (r.clearBelow top found col).IsReversible :=
  (before.exchange top found).clear col _ (by simp [mem_rowsBelow])

end Column

/-- The forward pass through one more column. -/
theorem forward_cons (r : Reduction start) (row : Nat) (col : Fin n) (rest : List (Fin n)) :
    r.forward row (col :: rest) =
      if h : row < m then
        match findPivot? r.grid col row with
        | none => r.forward row rest
        | some found =>
          (((r.clearBelow ⟨row, h⟩ found col).forward (row + 1) rest).1,
            (⟨row, h⟩, col) :: ((r.clearBelow ⟨row, h⟩ found col).forward (row + 1) rest).2)
      else (r, []) := by
  rw [forward]
  rfl

/-- The forward pass leaves the rows above alone, and every column that is zero from the current row
on. -/
theorem entry_forward (r : Reduction start) (row : Nat) (cols : List (Fin n)) (k : Fin m)
    (l : Fin n) (untouched : k.val < row ∨ ∀ i : Fin m, row ≤ i.val → r.grid.entry i l = 0) :
    (r.forward row cols).1.grid.entry k l = r.grid.entry k l := by
  induction cols generalizing r row with
  | nil => rfl
  | cons col rest ih =>
    rw [forward_cons]
    split
    · rename_i inside
      split
      · exact ih r row untouched
      · rename_i found search
        have under : (⟨row, inside⟩ : Fin m) ≤ found := (findPivot?_eq_some search).1
        -- a row above is not touched, and in a zero column no operation has an effect
        rcases untouched with above | zero
        · rw [ih _ _ (.inl (by omega))]
          exact r.entry_clearBelow_above under above l
        · have same := r.entry_clearBelow_of_zero col under zero
          rw [ih _ _ (.inr ?_), same]
          intro i below
          rw [same]
          exact zero i (by omega)
    · rfl

/-- **The forward pass leaves a staircase** with the pivots that it lists. -/
theorem forward_staircase (r : Reduction start) (row : Nat) (cols : List (Fin n)) :
    Staircase (r.forward row cols).1.grid row cols (r.forward row cols).2 := by
  induction cols generalizing r row with
  | nil => exact .nil
  | cons col rest ih =>
    rw [forward_cons]
    split
    · rename_i inside
      split
      · rename_i search
        have zero := fun i => findPivot?_eq_none search i
        refine .skip ?_ (ih r row)
        intro i below
        rw [r.entry_forward row rest i col (.inr zero)]
        exact zero i below
      · rename_i found search
        have nonzero := (findPivot?_eq_some search).2
        have cleared : ∀ i : Fin m, row + 1 ≤ i.val →
            (r.clearBelow ⟨row, inside⟩ found col).grid.entry i col = 0 :=
          fun i below => r.entry_clearBelow_zero nonzero below
        -- the rest of the pass does not come back to this column
        have kept := fun i => entry_forward (r.clearBelow ⟨row, inside⟩ found col) (row + 1) rest i
          col (.inr cleared)
        have present : ((r.clearBelow ⟨row, inside⟩ found col).forward (row + 1) rest).1.grid.entry
            ⟨row, inside⟩ col ≠ 0 := by
          rw [kept]
          exact r.entry_clearBelow_pivot nonzero
        refine .pivot present ?_ (ih _ _)
        intro i below
        rw [kept]
        exact cleared i below
    · rename_i full
      exact .of_no_rows _ (not_lt.mp full) _

theorem isReversible_forward {r : Reduction start} (before : r.IsReversible) (row : Nat)
    (cols : List (Fin n)) : (r.forward row cols).1.IsReversible := by
  induction cols generalizing r row with
  | nil => exact before
  | cons col rest ih =>
    rw [forward_cons]
    split
    · split
      · exact ih before row
      · exact ih (before.clearBelow _ _ col) (row + 1)
    · exact before

/-! ## The backward pass -/

/-- The grid after one pivot of the backward pass. -/
def clearAbove (r : Reduction start) (row : Fin m) (col : Fin n) : Reduction start :=
  (r.normalize row col).clear row col 1 (rowsAbove row)

section Pivot

variable (r : Reduction start) {row : Fin m} {col : Fin n}

theorem entry_clearAbove_below {k : Fin m} (below : row < k) (l : Fin n) :
    (r.clearAbove row col).grid.entry k l = r.grid.entry k l := by
  rw [clearAbove, entry_clear_above, if_neg (not_lt.mpr below.le), entry_normalize,
    if_neg below.ne']

theorem entry_clearAbove_self (l : Fin n) :
    (r.clearAbove row col).grid.entry row l = r.grid.entry row l / r.grid.entry row col := by
  rw [clearAbove, entry_clear_above, if_neg (lt_irrefl row), entry_normalize, if_pos rfl]

theorem entry_clearAbove_pivot (nonzero : r.grid.entry row col ≠ 0) :
    (r.clearAbove row col).grid.entry row col = 1 := by
  rw [entry_clearAbove_self, div_self nonzero]

theorem entry_clearAbove_zero (nonzero : r.grid.entry row col ≠ 0) {k : Fin m} (above : k < row) :
    (r.clearAbove row col).grid.entry k col = 0 := by
  rw [clearAbove, entry_clear_above, if_pos above, entry_normalize, entry_normalize, if_pos rfl,
    if_neg above.ne, div_self nonzero, div_one, mul_one, sub_self]

/-- A column that is zero in the pivot row stays as it is. -/
theorem entry_clearAbove_of_zero {l : Fin n} (zero : r.grid.entry row l = 0) (k : Fin m) :
    (r.clearAbove row col).grid.entry k l = r.grid.entry k l := by
  have normalized : ∀ k, (r.normalize row col).grid.entry k l = r.grid.entry k l := by
    intro k
    rw [entry_normalize]
    split
    · rename_i here
      rw [here, zero, zero_div]
    · rfl
  rw [clearAbove, entry_clear_above, normalized, normalized, zero, mul_zero, sub_zero, ite_self]

theorem IsReversible.clearAbove {r : Reduction start} (before : r.IsReversible)
    (nonzero : r.grid.entry row col ≠ 0) : (r.clearAbove row col).IsReversible :=
  (before.normalize nonzero).clear col 1 (by simp [mem_rowsAbove])

end Pivot

theorem backward_cons (r : Reduction start) (row : Fin m) (col : Fin n)
    (rest : List (Fin m × Fin n)) :
    r.backward ((row, col) :: rest) = (r.backward rest).clearAbove row col := rfl

variable {r : Reduction start} {row : Nat} {cols : List (Fin n)} {pivots : List (Fin m × Fin n)}

/-- The backward pass leaves every column alone that is zero from the first pivot row on. -/
theorem entry_backward (stairs : Staircase r.grid row cols pivots) {l : Fin n}
    (zero : ∀ i : Fin m, row ≤ i.val → r.grid.entry i l = 0) (k : Fin m) :
    (r.backward pivots).grid.entry k l = r.grid.entry k l := by
  -- the pass begins with the lowest pivot, so the rest of the staircase has been dealt with
  induction stairs generalizing k with
  | nil => rfl
  | skip _ _ ih => exact ih zero k
  | @pivot top col rest pivots _ _ _ ih =>
    have before : ∀ k, (r.backward pivots).grid.entry k l = r.grid.entry k l :=
      ih fun i below => zero i (by omega)
    rw [backward_cons, entry_clearAbove_of_zero, before]
    rw [before]
    exact zero top le_rfl

/-- The pivot is still there when the backward pass comes to its row. -/
theorem entry_backward_ne_zero {top : Fin m} {col : Fin n}
    (stairs : Staircase r.grid (top.val + 1) cols pivots) (nonzero : r.grid.entry top col ≠ 0)
    (zero : ∀ i : Fin m, top < i → r.grid.entry i col = 0) :
    (r.backward pivots).grid.entry top col ≠ 0 := by
  rwa [entry_backward stairs fun i below => zero i below]

/-- **The backward pass keeps the staircase.** -/
theorem backward_staircase (stairs : Staircase r.grid row cols pivots) :
    Staircase (r.backward pivots).grid row cols pivots := by
  induction stairs with
  | nil => exact .nil
  | skip zero tail ih =>
    refine .skip ?_ ih
    intro i below
    rw [entry_backward tail zero]
    exact zero i below
  | @pivot top col rest pivots nonzero zero tail ih =>
    rw [backward_cons]
    refine .pivot ?_ ?_ (ih.congr fun i below => (r.backward pivots).entry_clearAbove_below below)
    · rw [entry_clearAbove_pivot _ (entry_backward_ne_zero tail nonzero zero)]
      exact one_ne_zero
    · intro i below
      rw [entry_clearAbove_below _ below, entry_backward tail fun i below => zero i below]
      exact zero i below

/-- **After the backward pass every pivot is one, and the only entry of its column.** -/
theorem backward_unit (stairs : Staircase r.grid row cols pivots) {p : Fin m × Fin n}
    (mem : p ∈ pivots) (k : Fin m) :
    (r.backward pivots).grid.entry k p.2 = if k = p.1 then 1 else 0 := by
  induction stairs generalizing k with
  | nil => cases mem
  | skip _ _ ih => exact ih mem k
  | @pivot top col rest pivots nonzero zero tail ih =>
    rw [backward_cons]
    rcases List.mem_cons.mp mem with rfl | mem
    · have still := entry_backward_ne_zero tail nonzero zero
      rcases lt_trichotomy k top with above | here | below
      · rw [entry_clearAbove_zero _ still above, if_neg above.ne]
      · rw [here, entry_clearAbove_pivot _ still, if_pos rfl]
      · rw [entry_clearAbove_below _ below, entry_backward tail fun i below => zero i below,
          if_neg below.ne']
        exact zero k below
    · -- the column of a lower pivot is zero in this row by now
      have apart : top ≠ p.1 := by
        have := tail.row_le mem
        rintro rfl
        omega
      rw [entry_clearAbove_of_zero, ih mem]
      rw [ih mem, if_neg apart]

theorem isReversible_backward (stairs : Staircase r.grid row cols pivots)
    (before : r.IsReversible) : (r.backward pivots).IsReversible := by
  induction stairs with
  | nil => exact before
  | skip _ _ ih => exact ih
  | pivot nonzero zero tail ih =>
    exact ih.clearAbove (entry_backward_ne_zero tail nonzero zero)

end Reduction

end ExactAlgebra
