import ExactAlgebra.Cofactor.Expansion
import ExactAlgebra.Equation.Root

/-!
# Eigenvalues

The characteristic polynomial `det(x·I - A)` is expanded along first rows, with polynomials for
entries and with the arithmetic of polynomials. That arithmetic can refuse its operands in general,
so every step of the expansion may fail. The eigenvalues are the roots of the polynomial.

## Main definitions

* `PolyGrid`, `PolyGrid.minor` — squares of polynomials;
* `PolyGrid.det` — their determinant;
* `Mat.characteristicPolynomial`, `Mat.eigenvalues`.
-/

namespace ExactAlgebra

/-! ## Squares of polynomials -/

/-- **A square of polynomials**, row by row. -/
abbrev PolyGrid (n : Nat) :=
  Vector (Vector Poly n) n

namespace PolyGrid

variable {n : Nat}

/-- An entry. -/
def entry (g : PolyGrid n) (i j : Fin n) : Poly :=
  (g.get i).get j

/-- The square without its first row and one column. -/
def minor (g : PolyGrid (n + 1)) (j : Fin (n + 1)) : PolyGrid n :=
  (g.eraseIdx 0 n.succ_pos).map fun row => row.eraseIdx j j.isLt

/-- **The determinant of a square of polynomials**, by expansion along first rows. Entries that are
zero are passed over; up to two rows are computed directly. -/
def det : {n : Nat} → PolyGrid n → Except Error Poly
  | 0, _ => .ok (.constant (.ofRat 1) "")
  | 1, g => .ok (g.entry 0 0)
  | 2, g => do (← (g.entry 0 0).mul (g.entry 1 1)).sub (← (g.entry 0 1).mul (g.entry 1 0))
  | n + 3, g =>
    (List.finRange (n + 3)).foldlM
      (fun total j => do
        if (g.entry 0 j).isZero then return total
        let term ← (g.entry 0 j).mul (← det (g.minor j))
        if j.val % 2 = 0 then total.add term else total.sub term)
      (.zero "")

end PolyGrid

/-! ## Characteristic polynomials -/

/-- An entry of `x·I - A`: the variable or zero, less a number. -/
def characteristicEntry (symbol : String) (diagonal : Bool) (q : Rat) : Except Error Poly :=
  (if diagonal then .power symbol 1 else Poly.zero symbol).sub (.constant (.ofRat q) "")

/-- The square `x·I - A`. -/
def characteristicGrid {n : Nat} (symbol : String) (g : Grid n n) : Except Error (PolyGrid n) :=
  Vector.ofFnM fun i => Vector.ofFnM fun j => characteristicEntry symbol (i = j) (g.entry i j)

namespace Mat

/-- **The characteristic polynomial** of a square matrix, in the given variable. -/
def characteristicPolynomial (symbol : String) (a : Mat) : Except Error Poly := do
  let g ← a.squareGrid "The characteristic polynomial"
  if a.rows = 0 then return .constant (.ofRat 1) symbol
  (← characteristicGrid symbol g).det

/-- **The eigenvalues**, as often as their multiplicity; those without a notation are marked. -/
def eigenvalues (a : Mat) : Except Error (List Root) :=
  (a.characteristicPolynomial "x").map (·.allRoots)

end Mat

end ExactAlgebra
