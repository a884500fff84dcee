import ExactAlgebra.Cofactor.Adjugate
import ExactAlgebra.Proofs.Cofactor.Expansion
import Mathlib.LinearAlgebra.Matrix.Adjugate

/-!
# The adjugate and the inverse

The grid of cofactors holds the minors with the signs of their places, so its transpose is the
adjugate of linear algebra, in size one and zero too. Divided by a determinant that is not zero it
is the inverse.

## Main statements

* `Grid.cofactor_eq` — a cofactor is a determinant of a minor with its sign;
* `Grid.toMatrix_adjugate` — the adjugate;
* `Grid.inverse?_eq_none_iff`, `Grid.toMatrix_of_inverse?` — the inverse by the adjugate;
* `Mat.mul_adjugate_identity` — a matrix times its adjugate, in all sizes.
-/

namespace ExactAlgebra

open Matrix

variable {n : Nat}

namespace Grid

/-- **A cofactor** is the determinant of the minor, with the sign of the place. -/
theorem cofactor_eq (g : Grid (n + 1) (n + 1)) (i j : Fin (n + 1)) :
    g.cofactor i j =
      (-1) ^ (i.val + j.val) * (g.toMatrix.submatrix i.succAbove j.succAbove).det := by
  have minor : (g.minor i j).det = (toMatrix (m := n) (n := n) (g.minor i j)).det :=
    det_eq (n := n) (g.minor i j)
  rw [cofactor, checkerSign_eq, minor, toMatrix_minor]

/-- **The transpose of the cofactors is the adjugate.** -/
theorem toMatrix_adjugate (g : Grid n n) : g.adjugate.toMatrix = g.toMatrix.adjugate := by
  cases n with
  | zero => exact Subsingleton.elim _ _
  | succ n =>
    ext i j
    rw [adjugate_fin_succ_eq_det_submatrix, ← cofactor_eq, toMatrix_apply, adjugate,
      entry_transpose, cofactors, entry_ofEntries]

/-! ## The inverse -/

theorem toMatrix_scale (g : Grid n n) (q : ℚ) : (g.scale q).toMatrix = q • g.toMatrix := by
  ext i j
  rw [toMatrix_apply, entry_scale, Matrix.smul_apply, toMatrix_apply, smul_eq_mul, mul_comm]

theorem inverse?_eq_none_iff (g : Grid n n) : g.inverse? = none ↔ g.det = 0 := by
  rw [inverse?]
  split
  · simpa
  · simpa

/-- **The adjugate divided by the determinant is the inverse.** -/
theorem toMatrix_of_inverse? {g b : Grid n n} (found : g.inverse? = some b) :
    b.toMatrix * g.toMatrix = 1 := by
  rw [inverse?] at found
  split at found
  · cases found
  · rename_i nonzero
    obtain rfl := Option.some.inj found
    rw [toMatrix_scale, toMatrix_adjugate, Matrix.smul_mul, adjugate_mul, ← det_eq, smul_smul,
      one_div, inv_mul_cancel₀ nonzero, one_smul]

/-! ## Products with the adjugate -/

/-- **A grid times its adjugate** is the determinant times the identity: along a row the cofactors of
the same row give the determinant, and those of another row give zero. -/
theorem mul_adjugate (g : Grid n n) : g.mul g.adjugate = (identity n).scale g.det := by
  apply toMatrix_injective
  rw [toMatrix_mul, toMatrix_adjugate, toMatrix_scale, toMatrix_identity, det_eq]
  exact Matrix.mul_adjugate g.toMatrix

/-- **The adjugate times the grid**, column by column. -/
theorem adjugate_mul (g : Grid n n) : g.adjugate.mul g = (identity n).scale g.det := by
  apply toMatrix_injective
  rw [toMatrix_mul, toMatrix_adjugate, toMatrix_scale, toMatrix_identity, det_eq]
  exact Matrix.adjugate_mul g.toMatrix

end Grid

namespace Mat

/-- The cofactor at a place comes from the determinant of the minor there. -/
theorem cofactor_val (g : Grid n n) (i j : Fin n) :
    Mat.cofactor ⟨n, n, g⟩ (i.val : Int) (j.val : Int) = .ok (g.cofactor i j) := by
  rw [Mat.cofactor, squareGrid_square, bind_ok]
  dsimp only
  rw [rowIndex_val, bind_ok, columnIndex_val]
  rfl

/-- **A matrix times its adjugate is the determinant times the identity**, from both sides and in all
sizes, whether the determinant is zero or not. The adjugate is the transpose of the matrix of
cofactors, and each of those is the determinant of a minor by elimination, with the sign of its
place. -/
theorem mul_adjugate_identity (g : Grid n n) :
    ∃ (c : Grid n n) (d : ℚ), Mat.cofactors ⟨n, n, g⟩ = .ok ⟨n, n, c⟩ ∧ Mat.det ⟨n, n, g⟩ = .ok d ∧
      (∀ i j : Fin n, ∃ (m : Mat) (e : ℚ),
        Mat.minor ⟨n, n, g⟩ (i.val : Int) (j.val : Int) = .ok m ∧ m.det = .ok e ∧
          c.entry i j = (-1) ^ (i.val + j.val) * e ∧
          Mat.cofactor ⟨n, n, g⟩ (i.val : Int) (j.val : Int) = .ok (c.entry i j)) ∧
      Mat.adjugate ⟨n, n, g⟩ = .ok (Mat.transpose ⟨n, n, c⟩) ∧
      Mat.mul ⟨n, n, g⟩ (Mat.transpose ⟨n, n, c⟩) = .ok (Mat.scale ⟨n, n, Grid.identity n⟩ d) ∧
      Mat.mul (Mat.transpose ⟨n, n, c⟩) ⟨n, n, g⟩ = .ok (Mat.scale ⟨n, n, Grid.identity n⟩ d) := by
  refine ⟨g.cofactors, g.det, ?_, det_square g, fun i j => ?_, ?_, ?_, ?_⟩
  · rw [Mat.cofactors, squareGrid_square]
    rfl
  · have entry : g.cofactors.entry i j = g.cofactor i j := Grid.entry_ofEntries g.cofactor i j
    rw [entry]
    refine ⟨_, _, minor_val g i j, det_square (g.minor i j), ?_, cofactor_val g i j⟩
    rw [Grid.cofactor, checkerSign_eq]
  · rw [Mat.adjugate, squareGrid_square]
    rfl
  · have product := mul_grids g g.adjugate
    rw [g.mul_adjugate] at product
    exact product
  · have product := mul_grids g.adjugate g
    rw [g.adjugate_mul] at product
    exact product

end Mat

end ExactAlgebra
