import ExactAlgebra.Cofactor.Expansion

/-!
# Cofactors and the adjugate

The cofactor at a place is the determinant of the minor there, with the sign of the place. The
adjugate is the transpose of the grid of cofactors, and the inverse is the adjugate divided by the
determinant.

## Main definitions

* `Grid.cofactor`, `Grid.cofactors`, `Grid.adjugate` — of a square grid;
* `Grid.inverse?` — the inverse, if the determinant is not zero;
* `cofactorSteps`, `adjugateSteps`, `inverseSteps` — the journals.
-/

namespace ExactAlgebra

namespace Grid

variable {n : Nat}

/-- **The cofactor** at a place. -/
def cofactor (g : Grid n n) (i j : Fin n) : Rat :=
  checkerSign i.val j.val * (g.minor i j).det

/-- The grid of cofactors. -/
def cofactors (g : Grid n n) : Grid n n :=
  ofEntries g.cofactor

/-- **The adjugate.** -/
def adjugate (g : Grid n n) : Grid n n :=
  g.cofactors.transpose

/-- **The inverse by the adjugate**; `none` if the determinant is zero. -/
def inverse? (g : Grid n n) : Option (Grid n n) :=
  if g.det = 0 then none else some (g.adjugate.scale (1 / g.det))

end Grid

/-- The cofactor of a matrix at a place. -/
def Mat.cofactor (a : Mat) (i j : Int) : Except Error Rat := do
  let g ← a.squareGrid "A cofactor"
  let square : Mat := ⟨a.rows, a.rows, g⟩
  let row ← square.rowIndex i
  let column ← square.columnIndex j
  return g.cofactor row column

variable {n : Nat}

/-! ## Journals -/

/-- The journal of the grid of cofactors. -/
def cofactorSteps (g : Grid n n) : Journal :=
  [.start "Initial matrix" ⟨n, n, g⟩,
   .result "Cofactor matrix: C[i,j] = (-1)^(i+j)·M[i,j]" ⟨n, n, g.cofactors⟩]

/-- The journal of the adjugate. -/
def adjugateSteps (g : Grid n n) : Journal :=
  cofactorSteps g ++ [.result "Adjugate: transpose of the cofactor matrix" ⟨n, n, g.adjugate⟩]

/-- The journal of the inverse by the adjugate. -/
def inverseSteps (g : Grid n n) : Journal :=
  .start ("det(A) = " ++ Rational.text g.det) ⟨n, n, g⟩
    :: (adjugateSteps g
      ++ [.result ("A^-1 = adj(A) / " ++ Rational.text g.det)
            ⟨n, n, g.adjugate.scale (1 / g.det)⟩])

end ExactAlgebra
