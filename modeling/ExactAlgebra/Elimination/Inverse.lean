import ExactAlgebra.Elimination.Reduction

/-!
# Inverses by elimination

The grid `[A | I]` is reduced until the left block is the identity; the right block is then the
inverse. Every column is cleared above and below its pivot at once. A column without a pivot shows
that there is no inverse.

## Main definitions

* `Reduction.reduceSquare` — the reduction of the left block, or the column without a pivot;
* `invertByElimination` — the whole computation; the right block of its grid is the inverse.
-/

namespace ExactAlgebra

namespace Reduction

variable {n p : Nat} {start : Grid n (n + p)}

/-- The rows other than a given one. -/
def otherRows (row : Fin n) : List (Fin n) :=
  (List.finRange n).filter (· ≠ row)

/-- **Reduces the square block at the left** to the identity, in the given columns. -/
def reduceSquare (r : Reduction start) : List (Fin n) → Except Error (Reduction start)
  | [] => .ok r
  | col :: rest =>
    let column := col.castAdd p
    match findPivot? r.grid column col.val with
    | none => .error (.noPivot (col.val + 1))
    | some found =>
      reduceSquare
        (((r.exchange col found).normalize col column).clear col column 1 (otherRows col))
        rest

end Reduction

/-- **The reduction of `[A | I]`** until its left block is the identity. -/
def invertByElimination {n : Nat} (g : Grid n n) :
    Except Error (Reduction (g.beside (Grid.identity n))) :=
  (Reduction.begin (g.beside (Grid.identity n))).reduceSquare (List.finRange n)

end ExactAlgebra
