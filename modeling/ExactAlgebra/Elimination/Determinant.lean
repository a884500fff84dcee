import ExactAlgebra.Elimination.Reduction

/-!
# Determinants by elimination

A square grid is brought into triangular form by exchanging rows and clearing columns below the
diagonal. The determinant is the product of the pivots, and changes its sign with every exchange; it
is zero as soon as a column has no pivot. Grids with up to two rows are computed directly.

## Main definitions

* `Triangulation`, `triangulate` — the elimination with what it says about the determinant;
* `Grid.det` — the determinant;
* `determinantSteps` — how it is journaled.
-/

namespace ExactAlgebra

open ExactAlgebra.Text

/-- **An elimination to triangular form**: whether an odd number of rows was exchanged, the product
of the pivots, and the column that turned out to have none. -/
structure Triangulation {n : Nat} (start : Grid n n) where
  reduction : Reduction start
  odd : Bool
  product : Rat
  stuck : Option (Fin n)

namespace Triangulation

variable {n : Nat} {start : Grid n n}

/-- **Triangulates** the given columns. -/
def run (t : Triangulation start) : List (Fin n) → Triangulation start
  | [] => t
  | col :: rest =>
    match Reduction.findPivot? t.reduction.grid col col.val with
    | none => { t with stuck := some col }
    | some found =>
      let exchanged := t.reduction.exchange col found
      let pivot := exchanged.grid.entry col col
      run
        { reduction := exchanged.clear col col pivot (Reduction.rowsBelow col)
          odd := if col = found then t.odd else ! t.odd
          product := t.product * pivot
          stuck := none }
        rest

/-- The determinant that a triangulation shows. -/
def value (t : Triangulation start) : Rat :=
  match t.stuck with
  | some _ => 0
  | none => if t.odd then -t.product else t.product

end Triangulation

/-- The triangulation of a grid. -/
def triangulate {n : Nat} (g : Grid n n) : Triangulation g :=
  Triangulation.run ⟨Reduction.begin g, false, 1, none⟩ (List.finRange n)

/-- **The determinant.** -/
def Grid.det : {n : Nat} → Grid n n → Rat
  | 0, _ => 1
  | 1, g => g.entry 0 0
  | 2, g => g.entry 0 0 * g.entry 1 1 - g.entry 0 1 * g.entry 1 0
  | _ + 3, g => (triangulate g).value

/-! ## Journal -/

/-- The determinant in words, with the number of exchanges if it matters. -/
def pivotProductText (odd : Bool) (value : Rat) : String :=
  "det = product of the pivots"
    ++ (if odd then " (sign flipped by an odd number of swaps)" else "")
    ++ " = " ++ Rational.text value

/-- The determinant of a grid with two rows in words. -/
def crossProductText (a b c d : Rat) : String :=
  "det = ad - bc = " ++ Rational.text a ++ "·" ++ Rational.text d ++ " - "
    ++ Rational.factorText b ++ "·" ++ Rational.factorText c ++ " = "
    ++ Rational.text (a * d - b * c)

/-- The same for the grid itself. -/
def Grid.crossProduct (g : Grid 2 2) : String :=
  crossProductText (g.entry 0 0) (g.entry 0 1) (g.entry 1 0) (g.entry 1 1)

/-- The steps of a triangulation, with the conclusion that is drawn from it. -/
def Triangulation.steps {n : Nat} {start : Grid n n} (t : Triangulation start) : Journal :=
  let conclusion := match t.stuck with
    | some col => "Column " ++ natText (col.val + 1) ++ " has no pivot, so det = 0"
    | none => pivotProductText t.odd t.value
  t.reduction.steps ++ [.result conclusion ⟨n, n, t.reduction.grid⟩]

/-- The steps of a determinant after the first one. -/
def determinantSteps : {n : Nat} → Grid n n → Journal
  | 0, _ => []
  | 1, g => [.result ("det = " ++ Rational.text g.det) ⟨1, 1, g⟩]
  | 2, g =>
    [.result (crossProductText (g.entry 0 0) (g.entry 0 1) (g.entry 1 0) (g.entry 1 1)) ⟨2, 2, g⟩]
  | _ + 3, g => (triangulate g).steps

end ExactAlgebra
