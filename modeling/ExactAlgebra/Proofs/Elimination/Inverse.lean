import ExactAlgebra.Matrix.Operation
import ExactAlgebra.Proofs.Cofactor.Adjugate

/-!
# Both inverses

The reduction of `[A | I]` goes through the columns of `A`. The columns that it has left behind are
those of the identity; a column with a pivot becomes the next of these, and a column without one
shows that the determinant is zero. At the end the left block is the identity, so the matrix of the
elimination, which stands in the right block, is the inverse.

An inverse is unique, so this is the one that the adjugate gives. Matrices are values: both ways read
the matrix `A` that they are given, and the elimination works on the grid `[A | I]` of its own, so the
products with `A` below are with the matrix that was to be inverted.

## Main statements

* `Reduction.Sound.step` — a column with a pivot keeps the invariant;
* `Reduction.Sound.reduceSquare` — the rest of the columns: an identity, or a determinant of zero;
* `invertByElimination_spec` — the inverse by elimination;
* `Mat.inverses_agree` — both inverses, in all sizes.

## Main definitions

* `Reduction.Sound` — the invariant.
-/

namespace ExactAlgebra

open Matrix

variable {n p : Nat}

namespace Reduction

/-- **A reduction of a square block** when `done` columns are behind it: no operation has lost
anything, and those columns are the first ones of the identity. -/
structure Sound {start : Grid n (n + p)} (r : Reduction start) (done : Nat) : Prop where
  reversible : r.IsReversible
  unit : ∀ i j : Fin n, j.val < done → r.grid.entry i (j.castAdd p) = if i = j then 1 else 0

section Column

variable {start : Grid n (n + p)}

theorem mem_otherRows {row i : Fin n} : i ∈ otherRows row ↔ i ≠ row := by
  simp [otherRows]

/-- The reduction after one column that has a pivot. -/
def clearColumn (r : Reduction start) (col found : Fin n) : Reduction start :=
  ((r.exchange col found).normalize col (col.castAdd p)).clear col (col.castAdd p) 1 (otherRows col)

/-- **The entries after one column**: the pivot row is divided by the pivot, and subtracted from
every other row as often as that has an entry in the column. -/
theorem entry_clearColumn (r : Reduction start) (col found k : Fin n) (l : Fin (n + p)) :
    (r.clearColumn col found).grid.entry k l =
      if k = col then r.grid.entry found l / r.grid.entry found (col.castAdd p)
      else r.grid.entry (Equiv.swap col found k) l -
        r.grid.entry (Equiv.swap col found k) (col.castAdd p) *
          (r.grid.entry found l / r.grid.entry found (col.castAdd p)) := by
  have apart : col ∉ otherRows col := by simp [mem_otherRows]
  have once : (otherRows col).Nodup := (List.nodup_finRange n).filter _
  rw [clearColumn, entry_clear _ _ _ apart once]
  by_cases here : k = col
  · have pivotRow : k ∉ otherRows col := by rwa [mem_otherRows, not_not]
    rw [if_neg pivotRow, if_pos here, here, entry_normalize, if_pos rfl, entry_exchange,
      entry_exchange, Equiv.swap_apply_left]
  · rw [if_pos (mem_otherRows.mpr here), if_neg here, entry_normalize, entry_normalize,
      entry_normalize, if_neg here, if_neg here, if_pos rfl, div_one]
    simp only [entry_exchange, Equiv.swap_apply_left]

/-- **A column with a pivot keeps the invariant.** -/
theorem Sound.step {r : Reduction start} {col found : Fin n} (before : r.Sound col.val)
    (search : findPivot? r.grid (col.castAdd p) col.val = some found) :
    (r.clearColumn col found).Sound (col.val + 1) := by
  obtain ⟨below, nonzero⟩ := findPivot?_eq_some search
  constructor
  · have pivot : (r.exchange col found).grid.entry col (col.castAdd p) ≠ 0 := by
      rwa [entry_exchange, Equiv.swap_apply_left]
    exact ((before.reversible.exchange col found).normalize pivot).clear _ _
      (by simp [mem_otherRows])
  · intro i j lt
    rw [entry_clearColumn]
    rcases Nat.lt_succ_iff_lt_or_eq.mp lt with early | here
    · -- an earlier column is zero in the pivot row, and its one is in a row that is not exchanged
      have other : j ≠ col := fun same => absurd (congrArg Fin.val same) (Nat.ne_of_lt early)
      have other' : j ≠ found := fun same => absurd (congrArg Fin.val same) (by omega)
      have zero : r.grid.entry found (j.castAdd p) = 0 := by
        rw [before.unit found j early, if_neg other'.symm]
      rw [zero, zero_div, mul_zero, sub_zero, before.unit _ j early]
      by_cases pivotRow : i = col
      · rw [if_pos pivotRow, pivotRow, if_neg other.symm]
      · rw [if_neg pivotRow]
        have fixed : Equiv.swap col found i = j ↔ i = j := by
          rw [Equiv.swap_apply_eq_iff, Equiv.swap_apply_of_ne_of_ne other other']
        simp only [fixed]
    · obtain rfl : j = col := Fin.ext here
      rw [div_self nonzero, mul_one, sub_self]

/-- **The rest of the columns**, from any point on where the invariant holds: the left block becomes
the identity, or a column is reached that has no pivot. -/
theorem Sound.reduceSquare {r : Reduction start} {done : Nat} {cols : List (Fin n)}
    (before : r.Sound done) (order : cols.map Fin.val = List.range' done cols.length)
    (all : done + cols.length = n) :
    (∃ last, r.reduceSquare cols = .ok last ∧ last.Sound n) ∨
      ∃ (s : Reduction start) (col : Fin n), r.reduceSquare cols = .error (.noPivot (col.val + 1)) ∧
        s.Sound col.val ∧ findPivot? s.grid (col.castAdd p) col.val = none := by
  -- along the columns that are left, with the invariant for those behind
  induction cols generalizing r done with
  | nil =>
    obtain rfl : done = n := by simpa using all
    exact .inl ⟨r, rfl, before⟩
  | cons col rest ih =>
    simp only [List.map_cons, List.length_cons, List.range'_succ, List.cons.injEq] at order
    obtain ⟨rfl, order⟩ := order
    rw [Reduction.reduceSquare]
    cases search : findPivot? r.grid (col.castAdd p) col.val with
    | none => exact .inr ⟨r, col, rfl, before, search⟩
    | some found =>
      refine ih (before.step search) order ?_
      rw [List.length_cons] at all
      omega

end Column

section Blocks

variable {left : Grid n n} {right : Grid n p} {r : Reduction (left.beside right)}

/-- **A reduction to the identity** multiplies the left block by its inverse. -/
theorem Sound.transform_mul (last : r.Sound n) : r.transform * left.toMatrix = 1 := by
  rw [← toMatrix_leftBlock]
  ext i j
  rw [one_apply, ← last.unit i j j.isLt, Grid.toMatrix_apply, leftBlock, Grid.entry_ofEntries]

/-- **A column without a pivot** shows that the determinant of the left block is zero. -/
theorem Sound.det_eq_zero {col : Fin n} (before : r.Sound col.val)
    (search : findPivot? r.grid (col.castAdd p) col.val = none) : left.toMatrix.det = 0 := by
  have block : r.leftBlock.toMatrix.det = 0 := by
    apply det_eq_zero_of_no_pivot col
    · intro i j below early
      rw [Grid.toMatrix_apply, leftBlock, Grid.entry_ofEntries, before.unit i j early, if_neg]
      exact (early.trans_le below).ne'
    · intro i below
      rw [Grid.toMatrix_apply, leftBlock, Grid.entry_ofEntries]
      exact findPivot?_eq_none search i below
  rw [toMatrix_leftBlock, det_mul] at block
  have invertible := (isUnit_iff_isUnit_det _).mp (isUnit_transform before.reversible)
  exact (mul_eq_zero.mp block).resolve_left invertible.ne_zero

end Blocks

end Reduction

/-! ## The inverse by elimination -/

/-- **The inverse by elimination**: the right block at the end, unless the determinant is zero. -/
theorem invertByElimination_spec (g : Grid n n) :
    (∃ r, invertByElimination g = .ok r ∧ r.rightBlock.toMatrix * g.toMatrix = 1) ∨
      ∃ col, invertByElimination g = .error (.noPivot col) ∧ g.toMatrix.det = 0 := by
  have begins : (Reduction.begin (g.beside (Grid.identity n))).Sound 0 :=
    ⟨Reduction.isReversible_begin _, fun _ _ none => absurd none (Nat.not_lt_zero _)⟩
  have order : (List.finRange n).map Fin.val = List.range' 0 (List.finRange n).length := by
    rw [List.map_coe_finRange_eq_range, List.range_eq_range', List.length_finRange]
  rcases begins.reduceSquare order (by simp) with ⟨r, reduced, last⟩ | ⟨s, col, stuck, before, none⟩
  · refine .inl ⟨r, reduced, ?_⟩
    rw [Reduction.toMatrix_rightBlock, Grid.toMatrix_identity, Matrix.mul_one]
    exact last.transform_mul
  · exact .inr ⟨_, stuck, before.det_eq_zero none⟩

/-! ## Agreement -/

namespace Mat

theorem inverse_square (g : Grid n n) : Mat.inverse ⟨n, n, g⟩ =
    g.inverse?.elim (.error .zeroDeterminant) fun b => .ok ⟨n, n, b⟩ := by
  rw [Mat.inverse, squareGrid_square]
  simp only [bind, Except.bind]
  cases g.inverse? <;> rfl

theorem inverseByElimination_square (g : Grid n n) : Mat.inverseByElimination ⟨n, n, g⟩ =
    (invertByElimination g).map fun r => ⟨n, n, r.rightBlock⟩ := by
  rw [Mat.inverseByElimination, squareGrid_square]
  rfl

/-- An inverse from the left is one from both sides. -/
theorem mul_inverse {g b : Grid n n} (inverse : b.toMatrix * g.toMatrix = 1) :
    Mat.mul ⟨n, n, g⟩ ⟨n, n, b⟩ = .ok ⟨n, n, Grid.identity n⟩ ∧
      Mat.mul ⟨n, n, b⟩ ⟨n, n, g⟩ = .ok ⟨n, n, Grid.identity n⟩ := by
  have right : g.mul b = Grid.identity n := by
    apply Grid.toMatrix_injective
    rw [Grid.toMatrix_mul, Grid.toMatrix_identity]
    exact mul_eq_one_comm.mp inverse
  have left : b.mul g = Grid.identity n := by
    apply Grid.toMatrix_injective
    rw [Grid.toMatrix_mul, Grid.toMatrix_identity]
    exact inverse
  rw [mul_grids, mul_grids, right, left]
  exact ⟨rfl, rfl⟩

/-- **Both inverses agree.** If the determinant is not zero they are the same matrix, and it is the
inverse from both sides; if it is zero, both refuse. -/
theorem inverses_agree (g : Grid n n) :
    ∃ d, Mat.det ⟨n, n, g⟩ = .ok d ∧
      (d ≠ 0 → ∃ b : Grid n n, Mat.inverse ⟨n, n, g⟩ = .ok ⟨n, n, b⟩ ∧
        Mat.inverseByElimination ⟨n, n, g⟩ = .ok ⟨n, n, b⟩ ∧
        Mat.mul ⟨n, n, g⟩ ⟨n, n, b⟩ = .ok ⟨n, n, Grid.identity n⟩ ∧
        Mat.mul ⟨n, n, b⟩ ⟨n, n, g⟩ = .ok ⟨n, n, Grid.identity n⟩) ∧
      (d = 0 → ∃ e e', Mat.inverse ⟨n, n, g⟩ = .error e ∧ e.kind = .notInvertible ∧
        Mat.inverseByElimination ⟨n, n, g⟩ = .error e' ∧ e'.kind = .notInvertible) := by
  refine ⟨g.det, ?_, ?_, ?_⟩
  · rw [Mat.det, squareGrid_square]
    rfl
  · intro nonzero
    obtain ⟨b, found⟩ := Option.ne_none_iff_exists'.mp fun none =>
      nonzero ((Grid.inverse?_eq_none_iff g).mp none)
    have inverse := Grid.toMatrix_of_inverse? found
    refine ⟨b, by rw [inverse_square, found]; rfl, ?_, mul_inverse inverse⟩
    rcases invertByElimination_spec g with ⟨r, reduced, inverse'⟩ | ⟨col, -, zero⟩
    · have same : r.rightBlock = b := Grid.toMatrix_injective (left_inv_eq_left_inv inverse' inverse)
      rw [inverseByElimination_square, reduced, ← same]
      rfl
    · exact absurd (g.det_eq.trans zero) nonzero
  · intro zero
    refine ⟨.zeroDeterminant, ?_⟩
    rcases invertByElimination_spec g with ⟨r, -, inverse⟩ | ⟨col, refused, -⟩
    · -- a matrix with an inverse has a determinant that is not zero
      have invertible := (isUnit_iff_isUnit_det g.toMatrix).mp (.of_mul_eq_one_right _ inverse)
      exact absurd (g.det_eq.symm.trans zero) invertible.ne_zero
    · refine ⟨.noPivot col, ?_, rfl, ?_, rfl⟩
      · rw [inverse_square, (Grid.inverse?_eq_none_iff g).mpr zero]
        rfl
      · rw [inverseByElimination_square, refused]
        rfl

end Mat

end ExactAlgebra
