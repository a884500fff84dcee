import ExactAlgebra.Proofs.Elimination.Inverse
import ExactAlgebra.Proofs.Elimination.RowSpace
import ExactAlgebra.Proofs.Numbered.Cofactor

/-!
# Elimination with a second block

The elimination of `[A | B]` with pivots in the columns of `A` looks at these columns alone. So it goes
in step with the elimination of `A`: from equal columns both choose the same operation, and after it
the columns are equal again. The left block is therefore the reduced form of
`A`, whatever its rank, and the operations that lead to it are carried out on `B` as they are. As they
multiply by an invertible matrix, both blocks are multiplied by the same one; if `A` has an inverse, it
is that.

## Main statements

* `Reduction.InStep.forward`, `Reduction.InStep.backward` — both passes keep step, by one lemma for
  each thing that they do;
* `inStep_reduceUnion` — the elimination of `[A | B]` is in step with that of `A`;
* `leftBlock_reduceUnion`, `rightBlock_reduceUnion` — what becomes of the blocks;
* `reducedEchelon_of_isUnit`, `reducingGrid_of_inverse?` — the reduction of an invertible matrix;
* `Numbered.union_carries` — the results, for all sizes.

## Main definitions

* `Grid.HasColumns` — a grid has the columns of another one in given places;
* `Reduction.InStep` — eliminations of two such grids have made the same operations;
* `reducingGrid` — the matrix that both blocks are multiplied by.
-/

namespace ExactAlgebra

open Matrix

variable {m n p q : Nat}

/-! ## Columns in given places -/

/-- **A grid has the columns of another one**, each in a place that is given for it. -/
def Grid.HasColumns (h : Grid m n) (place : Fin p → Fin n) (g : Grid m p) : Prop :=
  ∀ i j, h.entry i (place j) = g.entry i j

theorem Grid.hasColumns_left (g : Grid m p) (h : Grid m q) :
    (g.beside h).HasColumns (Fin.castAdd q) g :=
  g.entry_beside_left h

theorem Grid.hasColumns_right (g : Grid m p) (h : Grid m q) :
    (g.beside h).HasColumns (Fin.natAdd p) h :=
  g.entry_beside_right h

variable {place : Fin p → Fin n} {g : Grid m p} {h : Grid m n}

namespace Grid.HasColumns

/-- **A row operation works column by column.** -/
theorem apply (columns : h.HasColumns place g) (op : RowOperation m) :
    (op.apply h).HasColumns place (op.apply g) := by
  intro i j
  cases op with
  | swap first second =>
    rw [RowOperation.entry_apply_swap, RowOperation.entry_apply_swap, columns]
  | scale row factor =>
    rw [RowOperation.entry_apply_scale, RowOperation.entry_apply_scale, columns]
  | add target source factor =>
    rw [RowOperation.entry_apply_add, RowOperation.entry_apply_add, columns, columns]

theorem applyAll (columns : h.HasColumns place g) (ops : List (RowOperation m)) :
    (RowOperation.applyAll ops h).HasColumns place (RowOperation.applyAll ops g) := by
  induction ops generalizing g h with
  | nil => exact columns
  | cons op rest ih => exact ih (columns.apply op)

/-- The same row has the pivot. -/
theorem findPivot? (columns : h.HasColumns place g) (col : Fin p) (first : Nat) :
    Reduction.findPivot? h (place col) first = Reduction.findPivot? g col first := by
  simp only [Reduction.findPivot?, columns _ col]

end Grid.HasColumns

/-! ## Eliminations in step -/

namespace Reduction

/-- **Two eliminations in step**: they have made the same operations, and so the columns that they
began with in common are still the same. -/
structure InStep (place : Fin p → Fin n) {g : Grid m p} {h : Grid m n} (r : Reduction g)
    (s : Reduction h) : Prop where
  operations : s.operations = r.operations
  columns : s.grid.HasColumns place r.grid

namespace InStep

variable {r : Reduction g} {s : Reduction h}

theorem begin (columns : h.HasColumns place g) :
    InStep place (Reduction.begin g) (Reduction.begin h) :=
  ⟨rfl, columns⟩

theorem perform (steps : InStep place r s) (op : RowOperation m) :
    InStep place (r.perform op) (s.perform op) :=
  ⟨congrArg (op :: ·) steps.operations, steps.columns.apply op⟩

theorem exchange (steps : InStep place r s) (i j : Fin m) :
    InStep place (r.exchange i j) (s.exchange i j) := by
  unfold Reduction.exchange
  split
  · exact steps
  · exact steps.perform _

theorem normalize (steps : InStep place r s) (row : Fin m) (col : Fin p) :
    InStep place (r.normalize row col) (s.normalize row (place col)) := by
  rw [Reduction.normalize, Reduction.normalize, steps.columns]
  split
  · exact steps
  · exact steps.perform _

theorem clear (steps : InStep place r s) (row : Fin m) (col : Fin p) (pivot : ℚ)
    (others : List (Fin m)) :
    InStep place (r.clear row col pivot others) (s.clear row (place col) pivot others) := by
  induction others generalizing r s with
  | nil => exact steps
  | cons i rest ih =>
    rw [Reduction.clear, Reduction.clear, List.foldl_cons, List.foldl_cons, steps.columns]
    split
    · exact ih steps
    · exact ih (steps.perform _)

theorem clearBelow (steps : InStep place r s) (top found : Fin m) (col : Fin p) :
    InStep place (r.clearBelow top found col) (s.clearBelow top found (place col)) := by
  have exchanged := steps.exchange top found
  rw [Reduction.clearBelow, Reduction.clearBelow, exchanged.columns]
  exact exchanged.clear top col _ _

theorem clearAbove (steps : InStep place r s) (row : Fin m) (col : Fin p) :
    InStep place (r.clearAbove row col) (s.clearAbove row (place col)) :=
  (steps.normalize row col).clear row col 1 _

/-- **The forward pass keeps step**, and finds the pivots in the same rows. -/
theorem forward (steps : InStep place r s) (row : Nat) (cols : List (Fin p)) :
    InStep place (r.forward row cols).1 (s.forward row (cols.map place)).1 ∧
      (s.forward row (cols.map place)).2 =
        (r.forward row cols).2.map fun pivot => (pivot.1, place pivot.2) := by
  induction cols generalizing r s row with
  | nil => exact ⟨steps, rfl⟩
  | cons col rest ih =>
    rw [List.map_cons, forward_cons, forward_cons]
    split
    · rename_i inside
      rw [steps.columns.findPivot? col row]
      -- both passes go on from the same row, with or without a pivot in this column
      split
      · exact ih steps row
      · rename_i found search
        obtain ⟨last, pivots⟩ := ih (steps.clearBelow ⟨row, inside⟩ found col) (row + 1)
        exact ⟨last, congrArg ((⟨row, inside⟩, place col) :: ·) pivots⟩
    · exact ⟨steps, rfl⟩

/-- **The backward pass keeps step.** -/
theorem backward (steps : InStep place r s) (pivots : List (Fin m × Fin p)) :
    InStep place (r.backward pivots)
      (s.backward (pivots.map fun pivot => (pivot.1, place pivot.2))) := by
  induction pivots with
  | nil => exact steps
  | cons pivot rest ih => exact ih.clearAbove pivot.1 pivot.2

end InStep

/-- Eliminations in step multiply by the same matrix. -/
theorem InStep.transform {r : Reduction g} {s : Reduction h} (steps : InStep place r s) :
    s.transform = r.transform := by
  rw [Reduction.transform, Reduction.transform, steps.operations]

end Reduction

/-- **Both passes keep step**, with pivots in the places of the columns. -/
theorem inStep_reducedEchelonIn (columns : h.HasColumns place g) (cols : List (Fin p)) :
    Reduction.InStep place (reducedEchelonIn cols g) (reducedEchelonIn (cols.map place) h) := by
  obtain ⟨last, pivots⟩ := (Reduction.InStep.begin columns).forward 0 cols
  show Reduction.InStep place (Reduction.backward _ _) (Reduction.backward _ _)
  rw [pivots]
  exact last.backward _

/-! ## Both blocks -/

section Union

variable (g : Grid m p) (h : Grid m q)

/-- **The elimination of `[A | B]` is in step with that of `A`.** -/
theorem inStep_reduceUnion :
    Reduction.InStep (Fin.castAdd q) (reducedEchelon g) (reduceUnion g h) :=
  inStep_reducedEchelonIn (g.hasColumns_left h) (pivotColumns m p)

/-- **The left block becomes the reduced form of `A`.** -/
theorem leftBlock_reduceUnion : (reduceUnion g h).leftBlock = (reducedEchelon g).grid := by
  refine Grid.ext_entries fun i j => ?_
  rw [Reduction.leftBlock, Grid.entry_ofEntries]
  exact (inStep_reduceUnion g h).columns i j

/-- **On the right block the operations are carried out that reduce `A`.** -/
theorem rightBlock_reduceUnion :
    (reduceUnion g h).rightBlock = RowOperation.applyAll (reducedEchelon g).history h := by
  refine Grid.ext_entries fun i j => ?_
  rw [Reduction.rightBlock, Grid.entry_ofEntries, ← (reduceUnion g h).reached,
    (inStep_reduceUnion g h).operations]
  exact (g.hasColumns_right h).applyAll _ i j

theorem toMatrix_rightBlock_reduceUnion :
    (reduceUnion g h).rightBlock.toMatrix = (reducedEchelon g).transform * h.toMatrix := by
  rw [Reduction.toMatrix_rightBlock, (inStep_reduceUnion g h).transform]

/-- The matrix that `A` is multiplied by, as a grid. -/
def reducingGrid : Grid m m :=
  Grid.ofEntries fun i j => (reducedEchelon g).transform i j

theorem toMatrix_reducingGrid : (reducingGrid g).toMatrix = (reducedEchelon g).transform := by
  rw [reducingGrid, Grid.toMatrix_ofEntries]
  rfl

theorem reducingGrid_mul : (reducingGrid g).mul g = (reducedEchelon g).grid := by
  apply Grid.toMatrix_injective
  rw [Grid.toMatrix_mul, toMatrix_reducingGrid, Reduction.toMatrix_grid]

theorem reducingGrid_mul_right : (reducingGrid g).mul h = (reduceUnion g h).rightBlock := by
  apply Grid.toMatrix_injective
  rw [Grid.toMatrix_mul, toMatrix_reducingGrid, toMatrix_rightBlock_reduceUnion]

end Union

/-! ## Invertible matrices -/

theorem isReducedRowEchelon_identity (n : Nat) : (Grid.identity n).toMatrix.IsReducedRowEchelon := by
  have diagonal : ∀ {i c : Fin n}, (Grid.identity n).toMatrix.IsLeadingEntry i c → i = c := by
    intro i c leading
    by_contra apart
    exact leading.2 (by rw [Grid.toMatrix_apply, Grid.entry_identity, if_neg apart])
  refine ⟨?_, ?_, ?_⟩
  · intro i k lower j before
    rw [Grid.toMatrix_apply, Grid.entry_identity, if_neg]
    rintro rfl
    -- the upper row would have no entry before this column, and so not its one
    have one := before i lower
    rw [Grid.toMatrix_apply, Grid.entry_identity, if_pos rfl] at one
    exact one_ne_zero one
  · intro i c leading
    rw [Grid.toMatrix_apply, Grid.entry_identity, if_pos (diagonal leading)]
  · intro i k c above leading
    obtain rfl := diagonal leading
    rw [Grid.toMatrix_apply, Grid.entry_identity, if_neg above.ne]

/-- **The reduced form of an invertible matrix is the identity.** -/
theorem reducedEchelon_of_isUnit {g : Grid n n} (unit : IsUnit g.toMatrix) :
    (reducedEchelon g).grid = Grid.identity n := by
  apply reduced_unique (isReducedRowEchelon_reducedEchelon g) (isReducedRowEchelon_identity n)
  rw [rowSpace_reducedEchelon]
  apply rowSpace_eq_of_transform unit
  rw [Grid.toMatrix_identity, Matrix.mul_one]

/-- **The inverse is what an invertible matrix is reduced by.** -/
theorem reducingGrid_of_inverse? {g inverse : Grid n n} (found : g.inverse? = some inverse) :
    (reducedEchelon g).grid = Grid.identity n ∧ reducingGrid g = inverse := by
  have product := Grid.toMatrix_of_inverse? found
  have reduced := reducedEchelon_of_isUnit (.of_mul_eq_one_right _ product)
  refine ⟨reduced, Grid.toMatrix_injective ?_⟩
  have product' : (reducingGrid g).toMatrix * g.toMatrix = 1 := by
    rw [← Grid.toMatrix_mul, reducingGrid_mul, reduced, Grid.toMatrix_identity]
  exact left_inv_eq_left_inv product' product

namespace Numbered

/-! ## The algorithm -/

theorem union_grids (g : Grid m p) (h : Grid m q) (before : Option Journal) :
    ∃ after, union ⟨m, p, g⟩ ⟨m, q, h⟩ before =
      .ok ((⟨m, p, (ExactAlgebra.reducedEchelon g).grid⟩, ⟨m, q, (reducingGrid g).mul h⟩), after) := by
  rw [union_eq, unionEchelon, dif_pos rfl, ← leftBlock_reduceUnion g h, reducingGrid_mul_right]
  exact ⟨_, rfl⟩

/-- The matrices with a determinant other than zero, with their inverses. -/
theorem exists_inverse {a : Mat} {d : ℚ} (determinant : det a none = .ok (d, none))
    (nonzero : d ≠ 0) : ∃ (n : Nat) (g inverse : Grid n n), a = ⟨n, n, g⟩ ∧
      g.inverse? = some inverse ∧ Numbered.inverse a none = .ok (⟨n, n, inverse⟩, none) := by
  rcases square_cases "The determinant" a with ⟨n, g, rfl⟩ | ⟨refused, -⟩
  · rw [det_eq] at determinant
    cases determinant
    obtain ⟨inverse, found⟩ := Option.ne_none_iff_exists'.mp fun none =>
      nonzero ((Grid.inverse?_eq_none_iff g).mp none)
    refine ⟨n, g, inverse, rfl, found, ?_⟩
    rw [inverse_eq g "", Mat.inverse_square, found, Operation.journal, Mat.squareGrid_square, bind_ok,
      if_neg nonzero]
    rfl
  · rw [det, refused] at determinant
    cases determinant

/-- **Elimination carries the second block through the same transformation.** The blocks have to have
as many rows; then both are multiplied by one invertible matrix, and the first becomes its reduced
form. If it has an inverse, this form is the identity, and the second block is multiplied by the
inverse. -/
theorem union_carries (a b : Mat) (before : Option Journal) :
    ((∃ fault, union a b before = .error fault) ↔ a.rows ≠ b.rows) ∧
    (∀ fault, union a b before = .error fault → fault.kind = .invalidArgument) ∧
    (a.rows = b.rows → ∃ (T : Grid a.rows a.rows) (left right : Mat) (after : Option Journal),
      union a b before = .ok ((left, right), after) ∧ IsUnit T.toMatrix ∧
      Mat.mul ⟨a.rows, a.rows, T⟩ a = .ok left ∧ Mat.mul ⟨a.rows, a.rows, T⟩ b = .ok right ∧
      reducedEchelon a none = .ok (left, none) ∧
      ∀ d, det a none = .ok (d, none) → d ≠ 0 →
        left = ⟨a.rows, a.rows, Grid.identity a.rows⟩ ∧
        ∃ inverse, Numbered.inverse a none = .ok (inverse, none) ∧
          Mat.mul inverse b = .ok right) := by
  by_cases same : b.rows = a.rows
  · obtain ⟨m, p, g⟩ := a
    obtain ⟨k, q, h⟩ := b
    obtain rfl : k = m := same
    obtain ⟨after, result⟩ := union_grids g h before
    rw [result]
    refine ⟨⟨?_, fun apart => absurd rfl apart⟩, ?_, fun _ => ⟨reducingGrid g, _, _, after, rfl, ?_⟩⟩
    · rintro ⟨fault, ⟨⟩⟩
    · rintro fault ⟨⟩
    · refine ⟨?_, ?_, Mat.mul_grids _ h, reducedEchelon_eq _ none, ?_⟩
      · rw [toMatrix_reducingGrid]
        exact isUnit_transform_reducedEchelon g
      · rw [Mat.mul_grids, reducingGrid_mul]
      · intro d determinant nonzero
        obtain ⟨n, g', inverse, whole, found, inverted⟩ := exists_inverse determinant nonzero
        cases whole
        obtain ⟨reduced, transformed⟩ := reducingGrid_of_inverse? found
        rw [reduced, transformed]
        exact ⟨rfl, _, inverted, Mat.mul_grids inverse h⟩
  · rw [union_eq, unionEchelon, dif_neg same]
    refine ⟨⟨fun _ => Ne.symm same, fun _ => ⟨_, rfl⟩⟩, ?_, fun equal => absurd equal.symm same⟩
    rintro fault ⟨⟩
    rfl

end Numbered

end ExactAlgebra
