import ExactAlgebra.Elimination.Reduction
import ExactAlgebra.Proofs.Matrix.Entry
import Mathlib.LinearAlgebra.Matrix.Swap
import Mathlib.LinearAlgebra.Matrix.Transvection
import Mathlib.LinearAlgebra.Matrix.Permutation
import Mathlib.LinearAlgebra.Matrix.NonsingularInverse

/-!
# Row operations as matrices

An elementary row operation multiplies a grid from the left by an elementary matrix, so a list of
operations multiplies it by a product of such matrices. Whether the operations can be undone is
whether none of those has determinant zero; that is so unless a row is scaled by zero or cancelled
by itself.

## Main statements

* `toMatrix_apply` — an operation is a multiplication by its matrix;
* `det_matrix` — the determinant of that matrix;
* `Reduction.toMatrix_grid`, `Reduction.isUnit_transform` — an elimination multiplies by one
  matrix, which is invertible if all of its operations are reversible;
* `Reduction.toMatrix_leftBlock`, `Reduction.toMatrix_rightBlock` — and so it does with each block.

## Main definitions

* `RowOperation.matrix`, `RowOperation.determinant` — the elementary matrix of an operation;
* `RowOperation.IsReversible`, `Reduction.IsReversible` — operations that can be undone;
* `Reduction.transform` — the matrix of a whole elimination.
-/

namespace ExactAlgebra

open Matrix

namespace RowOperation

variable {m n : Nat}

/-! ## Entries -/

theorem entry_apply_swap (g : Grid m n) (first second i : Fin m) (j : Fin n) :
    ((swap first second).apply g).entry i j = g.entry (Equiv.swap first second i) j := by
  simp only [apply, Grid.entry_setRow, Equiv.swap_apply_def]
  split
  · rename_i h
    subst h
    split
    · rename_i h
      rw [h]
      rfl
    · rfl
  · split
    · rfl
    · rfl

theorem entry_apply_scale (g : Grid m n) (row i : Fin m) (factor : ℚ) (j : Fin n) :
    ((scale row factor).apply g).entry i j =
      if i = row then g.entry i j * factor else g.entry i j := by
  simp only [apply, Grid.entry_setRow]
  split
  · rename_i h
    subst h
    simp [Grid.entry]
  · rfl

theorem entry_apply_add (g : Grid m n) (target source i : Fin m) (factor : ℚ) (j : Fin n) :
    ((add target source factor).apply g).entry i j =
      if i = target then g.entry i j + factor * g.entry source j else g.entry i j := by
  simp only [apply, Grid.entry_setRow]
  split
  · rename_i h
    subst h
    simp [Grid.entry]
  · rfl

/-! ## Elementary matrices -/

/-- **The matrix of an operation.** -/
def matrix : RowOperation m → Matrix (Fin m) (Fin m) ℚ
  | swap first second => Matrix.swap ℚ first second
  | scale row factor => diagonal (Function.update 1 row factor)
  | add target source factor => transvection target source factor

/-- **An operation multiplies by its matrix.** -/
theorem toMatrix_apply (op : RowOperation m) (g : Grid m n) :
    (op.apply g).toMatrix = op.matrix * g.toMatrix := by
  ext i j
  rw [Grid.toMatrix_apply]
  cases op with
  | swap first second =>
    rw [entry_apply_swap, matrix, Matrix.swap, PEquiv.toMatrix_toPEquiv_mul]
    rfl
  | scale row factor =>
    rw [entry_apply_scale, matrix, diagonal_mul, Function.update_apply]
    split <;> simp [mul_comm]
  | add target source factor =>
    rw [entry_apply_add, matrix]
    split
    · rename_i h
      rw [h, transvection_mul_apply_same]
      rfl
    · rename_i h
      rw [transvection_mul_apply_of_ne _ _ _ _ h]
      rfl

/-- Adding a multiple of a row to that row scales it. -/
theorem transvection_self (i : Fin m) (c : ℚ) :
    transvection i i c = diagonal (Function.update 1 i (1 + c)) := by
  ext k l
  rw [transvection, Matrix.add_apply, Matrix.single_apply, Matrix.one_apply, diagonal_apply,
    Function.update_apply]
  by_cases same : k = l
  · subst same
    by_cases here : k = i
    · simp [here]
    · simp [here, Ne.symm here]
  · have apart : ¬ (i = k ∧ i = l) := fun h => same (h.1.symm.trans h.2)
    simp [same, apart]

/-- The determinant of the matrix of an operation. -/
def determinant : RowOperation m → ℚ
  | swap first second => if first = second then 1 else -1
  | scale _ factor => factor
  | add target source factor => if target = source then 1 + factor else 1

theorem det_diagonal_update (i : Fin m) (c : ℚ) :
    (diagonal (Function.update 1 i c)).det = c := by
  rw [det_diagonal, Finset.prod_update_of_mem (Finset.mem_univ i)]
  simp

theorem det_matrix (op : RowOperation m) : op.matrix.det = op.determinant := by
  cases op with
  | swap first second =>
    rw [matrix, determinant, Matrix.swap, det_permutation]
    split
    · rename_i same
      simp [same]
    · rename_i apart
      simp [Equiv.Perm.sign_swap apart]
  | scale row factor => exact det_diagonal_update row factor
  | add target source factor =>
    rw [matrix, determinant]
    split
    · rename_i same
      rw [same, transvection_self, det_diagonal_update]
    · rename_i apart
      exact det_transvection_of_ne _ _ apart factor

/-! ## Reversible operations -/

/-- **An operation that can be undone**: no row is scaled by zero, and none is cancelled by a
multiple of itself. -/
def IsReversible (op : RowOperation m) : Prop :=
  op.determinant ≠ 0

theorem isReversible_swap (first second : Fin m) : (swap first second).IsReversible := by
  rw [IsReversible, determinant]
  split <;> decide

theorem isReversible_scale {row : Fin m} {factor : ℚ} (nonzero : factor ≠ 0) :
    (scale row factor).IsReversible :=
  nonzero

theorem isReversible_add {target source : Fin m} (apart : target ≠ source) (factor : ℚ) :
    (add target source factor).IsReversible := by
  rw [IsReversible, determinant, if_neg apart]
  exact one_ne_zero

end RowOperation

namespace Reduction

variable {m n : Nat} {start : Grid m n}

/-- **The matrix of an elimination**: the product of those of its operations, the last one at the
left. -/
def transform (r : Reduction start) : Matrix (Fin m) (Fin m) ℚ :=
  (r.operations.map RowOperation.matrix).prod

/-- **An elimination multiplies by its matrix.** -/
theorem toMatrix_grid (r : Reduction start) : r.grid.toMatrix = r.transform * start.toMatrix := by
  obtain ⟨operations, grid, reached⟩ := r
  subst reached
  rw [transform]
  induction operations with
  | nil => simp [RowOperation.applyAll]
  | cons op rest ih =>
    simp only [RowOperation.applyAll, List.reverse_cons, List.foldl_append, List.foldl_cons,
      List.foldl_nil] at ih ⊢
    rw [RowOperation.toMatrix_apply, ih, List.map_cons, List.prod_cons, Matrix.mul_assoc]

/-- All operations of the elimination can be undone. -/
def IsReversible (r : Reduction start) : Prop :=
  ∀ op ∈ r.operations, op.IsReversible

theorem det_transform (r : Reduction start) :
    r.transform.det = (r.operations.map RowOperation.determinant).prod := by
  rw [transform]
  induction r.operations with
  | nil => simp
  | cons op rest ih => simp [Matrix.det_mul, RowOperation.det_matrix, ih]

/-- **A reversible elimination has an invertible matrix.** -/
theorem isUnit_transform {r : Reduction start} (reversible : r.IsReversible) :
    IsUnit r.transform := by
  rw [Matrix.isUnit_iff_isUnit_det, isUnit_iff_ne_zero, det_transform]
  refine List.prod_ne_zero ?_
  intro zero
  obtain ⟨op, mem, vanishes⟩ := List.mem_map.mp zero
  exact reversible op mem vanishes

theorem isReversible_begin (start : Grid m n) : (begin start).IsReversible := by
  intro op mem
  cases mem

theorem isReversible_perform {r : Reduction start} {op : RowOperation m}
    (before : r.IsReversible) (last : op.IsReversible) : (r.perform op).IsReversible := by
  intro other mem
  rcases List.mem_cons.mp mem with rfl | mem
  · exact last
  · exact before other mem

/-! ## Blocks -/

section Blocks

variable {p q : Nat} {left : Grid m p} {right : Grid m q} (r : Reduction (left.beside right))

/-- Each block is multiplied by the matrix of the elimination. -/
theorem toMatrix_leftBlock : r.leftBlock.toMatrix = r.transform * left.toMatrix := by
  ext i j
  have entry := congrFun (congrFun r.toMatrix_grid i) (j.castAdd q)
  rw [Matrix.mul_apply] at entry ⊢
  simpa [leftBlock, Grid.entry_beside_left] using entry

theorem toMatrix_rightBlock : r.rightBlock.toMatrix = r.transform * right.toMatrix := by
  ext i j
  have entry := congrFun (congrFun r.toMatrix_grid i) (j.natAdd p)
  rw [Matrix.mul_apply] at entry ⊢
  simpa [rightBlock, Grid.entry_beside_right] using entry

end Blocks

end Reduction

end ExactAlgebra
