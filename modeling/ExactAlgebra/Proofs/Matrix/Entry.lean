import ExactAlgebra.Matrix.Basic
import ExactAlgebra.Proofs.Error.Run
import Mathlib.LinearAlgebra.Matrix.Defs
import Mathlib.Data.Matrix.Mul
import Mathlib.Algebra.BigOperators.Fin
import Mathlib.Data.Rat.Defs

/-!
# The entries of a grid

Every operation on grids is known by the entries of its result. This module says what those are,
one lemma for each operation, and reads a grid as a matrix in the sense of linear algebra; sums,
products, transposes and blocks of grids are those of the matrices.

## Main statements

* `entry_minor` — a minor reads around the row and the column that it leaves out;
* `entry_setRow`, `entry_beside_left`, `entry_beside_right` — changed rows and joined blocks;
* `toMatrix_mul`, `toMatrix_add`, `toMatrix_transpose` — arithmetic of grids is that of matrices;
* `Mat.get_val`, `Mat.row_val`, `Mat.minor_val` and so on — what is asked for by a number in range;
* `Mat.mul_grids` — a product whose inner sizes agree.

## Main definitions

* `Grid.toMatrix` — the matrix of a grid.
-/

namespace ExactAlgebra

namespace Grid

variable {m n p : Nat}

/-- **The matrix of a grid.** -/
def toMatrix (g : Grid m n) : Matrix (Fin m) (Fin n) ℚ :=
  Matrix.of g.entry

@[simp]
theorem toMatrix_apply (g : Grid m n) (i : Fin m) (j : Fin n) : g.toMatrix i j = g.entry i j := rfl

theorem toMatrix_injective : Function.Injective (toMatrix (m := m) (n := n)) := by
  intro g h same
  exact ext_entries fun i j => congrFun (congrFun same i) j

@[simp]
theorem toMatrix_ofEntries (f : Fin m → Fin n → ℚ) : (ofEntries f).toMatrix = Matrix.of f := by
  ext i j
  simp

/-! ## Rows -/

theorem row_setRow (g : Grid m n) (i k : Fin m) (values : Vector ℚ n) :
    (g.setRow i values).row k = if k = i then values else g.row k := by
  simp only [row, setRow, Fin.getElem_fin, Vector.getElem_set, eq_comm (a := k), Fin.ext_iff]

theorem entry_setRow (g : Grid m n) (i k : Fin m) (j : Fin n) (values : Vector ℚ n) :
    (g.setRow i values).entry k j = if k = i then getElem values j.val j.isLt else g.entry k j := by
  rw [entry, row_setRow]
  split <;> rfl

theorem isZeroRow_iff (g : Grid m n) (i : Fin m) : g.isZeroRow i = true ↔ ∀ j, g.entry i j = 0 := by
  simp only [isZeroRow, Vector.all_eq_true, decide_eq_true_eq]
  exact ⟨fun h j => h j.val j.isLt, fun h j hj => h ⟨j, hj⟩⟩

/-! ## Arithmetic -/

@[simp]
theorem entry_fill (q : ℚ) (i : Fin m) (j : Fin n) : (fill m n q).entry i j = q := by
  simp [fill, entry, row]

@[simp]
theorem entry_zero (i : Fin m) (j : Fin n) : (zero m n).entry i j = 0 :=
  entry_fill 0 i j

@[simp]
theorem entry_diagonal (values : Fin n → ℚ) (i j : Fin n) :
    (diagonal values).entry i j = if i = j then values i else 0 :=
  entry_ofEntries _ i j

theorem entry_identity (i j : Fin n) : (identity n).entry i j = if i = j then 1 else 0 :=
  entry_diagonal _ i j

@[simp]
theorem entry_transpose (g : Grid m n) (i : Fin n) (j : Fin m) :
    g.transpose.entry i j = g.entry j i :=
  entry_ofEntries _ i j

@[simp]
theorem entry_scale (g : Grid m n) (q : ℚ) (i : Fin m) (j : Fin n) :
    (g.scale q).entry i j = g.entry i j * q := by
  simp [scale, entry, row]

@[simp]
theorem entry_add (g h : Grid m n) (i : Fin m) (j : Fin n) :
    (g.add h).entry i j = g.entry i j + h.entry i j := by
  simp [add, entry, row]

@[simp]
theorem entry_sub (g h : Grid m n) (i : Fin m) (j : Fin n) :
    (g.sub h).entry i j = g.entry i j - h.entry i j := by
  simp [sub, entry, row]

/-- A running total is a sum. -/
theorem sumOver_eq_sum (n : Nat) (value : Fin n → ℚ) : sumOver n value = ∑ k, value k := by
  rw [sumOver, Fin.sum_univ_def, List.sum_eq_foldl, List.foldl_map]

theorem entry_mul (g : Grid m n) (h : Grid n p) (i : Fin m) (j : Fin p) :
    (g.mul h).entry i j = ∑ k, g.entry i k * h.entry k j := by
  rw [mul, entry_ofEntries, sumOver_eq_sum]

theorem toMatrix_mul (g : Grid m n) (h : Grid n p) :
    (g.mul h).toMatrix = g.toMatrix * h.toMatrix := by
  ext i j
  rw [toMatrix_apply, entry_mul, Matrix.mul_apply]
  rfl

theorem toMatrix_add (g h : Grid m n) : (g.add h).toMatrix = g.toMatrix + h.toMatrix := by
  ext i j
  exact entry_add g h i j

theorem toMatrix_transpose (g : Grid m n) : g.transpose.toMatrix = g.toMatrix.transpose := by
  ext i j
  exact entry_transpose g i j

theorem toMatrix_identity (n : Nat) : (identity n).toMatrix = 1 := by
  ext i j
  rw [toMatrix_apply, entry_identity, Matrix.one_apply]

/-! ## Blocks -/

theorem entry_beside_left (g : Grid m n) (h : Grid m p) (i : Fin m) (j : Fin n) :
    (g.beside h).entry i (j.castAdd p) = g.entry i j := by
  simp [beside, entry, row]

theorem entry_beside_right (g : Grid m n) (h : Grid m p) (i : Fin m) (j : Fin p) :
    (g.beside h).entry i (j.natAdd n) = h.entry i j := by
  simp [beside, entry, row]

@[simp]
theorem entry_leftPart (g : Grid m n) (k : Nat) (fits : k ≤ n) (i : Fin m) (j : Fin k) :
    (g.leftPart k fits).entry i j = g.entry i (j.castLE fits) :=
  entry_ofEntries _ i j

theorem entry_rightPart (g : Grid m n) (k : Nat) (fits : k ≤ n) (i : Fin m) (j : Fin (n - k))
    (inside : k + j.val < n) : (g.rightPart k fits).entry i j = g.entry i ⟨k + j.val, inside⟩ :=
  entry_ofEntries _ i j

/-- What is left of a list after an erasure, in terms of the positions that it had. -/
theorem getElem_eraseIdx_succAbove {α : Type} {d : Nat} (v : Vector α (d + 1)) (c : Fin (d + 1))
    (a : Fin d) : (v.eraseIdx c.val)[a.val] = v[(c.succAbove a).val] := by
  rw [Vector.getElem_eraseIdx]
  split
  · rename_i below
    simp [Fin.succAbove_of_castSucc_lt c a below]
  · rename_i above
    simp [Fin.succAbove_of_le_castSucc c a (Nat.le_of_not_lt above)]

/-- **A minor reads around the row and the column that it leaves out.** -/
theorem entry_minor (g : Grid (m + 1) (n + 1)) (i : Fin (m + 1)) (j : Fin (n + 1))
    (k : Fin m) (l : Fin n) :
    entry (m := m) (n := n) (g.minor i j) k l = g.entry (i.succAbove k) (j.succAbove l) := by
  have rows : (g.eraseIdx i.val)[k.val] = g[(i.succAbove k).val] := getElem_eraseIdx_succAbove g i k
  simp only [minor, eraseColumn, eraseRow, entry, row, Fin.getElem_fin, Vector.getElem_map]
  rw [← getElem_eraseIdx_succAbove, ← rows]

@[simp]
theorem castCols_self (g : Grid m n) : g.castCols rfl = g := by
  apply ext_entries
  intro i j
  simp [castCols, entry, row]

end Grid

/-! ## What a matrix is asked for -/

namespace Mat

variable {m n p : Nat} (g : Grid m n)

theorem length_toLists (a : Mat) : a.toLists.length = a.rows := by
  simp [toLists]

theorem getElem?_toLists (i : Fin m) : (toLists ⟨m, n, g⟩)[i.val]? = some (g.row i).toList := by
  simp [toLists, Grid.row]

theorem rowIndex_val (i : Fin m) : rowIndex ⟨m, n, g⟩ (i.val : Int) = .ok i := by
  have inside : (0 : Int) ≤ i.val ∧ (i.val : Int) < m := by omega
  rw [rowIndex, dif_pos inside]
  rfl

theorem columnIndex_val (j : Fin n) : columnIndex ⟨m, n, g⟩ (j.val : Int) = .ok j := by
  have inside : (0 : Int) ≤ j.val ∧ (j.val : Int) < n := by omega
  rw [columnIndex, dif_pos inside]
  rfl

theorem get_val (i : Fin m) (j : Fin n) :
    get ⟨m, n, g⟩ (i.val : Int) (j.val : Int) = .ok (g.entry i j) := by
  rw [get, rowIndex_val, bind_ok, columnIndex_val]
  rfl

/-- The four entries of a grid with two rows and columns. -/
theorem get_two (g : Grid 2 2) :
    get ⟨2, 2, g⟩ 0 0 = .ok (g.entry 0 0) ∧ get ⟨2, 2, g⟩ 0 1 = .ok (g.entry 0 1) ∧
      get ⟨2, 2, g⟩ 1 0 = .ok (g.entry 1 0) ∧ get ⟨2, 2, g⟩ 1 1 = .ok (g.entry 1 1) :=
  ⟨get_val g 0 0, get_val g 0 1, get_val g 1 0, get_val g 1 1⟩

theorem row_val (i : Fin m) : row ⟨m, n, g⟩ (i.val : Int) = .ok (g.row i).toList := by
  rw [row, rowIndex_val]
  rfl

theorem column_val (j : Fin n) : column ⟨m, n, g⟩ (j.val : Int) = .ok (g.column j).toList := by
  rw [column, columnIndex_val]
  rfl

theorem isZeroRow_val (i : Fin m) :
    isZeroRow ⟨m, n, g⟩ (i.val : Int) = .ok (g.isZeroRow i) := by
  rw [isZeroRow, rowIndex_val]
  rfl

theorem minor_val (i : Fin m) (j : Fin n) :
    minor ⟨m, n, g⟩ (i.val : Int) (j.val : Int) = .ok ⟨m - 1, n - 1, g.minor i j⟩ := by
  rw [minor, rowIndex_val, bind_ok, columnIndex_val]
  rfl

/-- **The product of two grids**, as matrices. -/
theorem mul_grids (h : Grid n p) : mul ⟨m, n, g⟩ ⟨n, p, h⟩ = .ok ⟨m, p, g.mul h⟩ := by
  rw [mul, dif_pos rfl, Grid.castCols_self]

end Mat

end ExactAlgebra
