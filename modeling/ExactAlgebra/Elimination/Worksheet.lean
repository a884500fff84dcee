import ExactAlgebra.Elimination.Determinant
import ExactAlgebra.Elimination.Inverse

/-!
# Eliminations in place

A worksheet is a grid that is changed in place, and the journal of the changes if one is kept. Every
row operation is noted when it is made; without a journal nothing is noted, and nothing else is
different. A pass that cannot go on leaves the worksheet as it is then, with all that was noted.

## Main definitions

* `Worksheet` — the grid, and the journal if there is one;
* `Worksheet.perform`, `Worksheet.note` — a row operation, and any other step;
* `Worksheet.forward`, `Worksheet.backward` — the passes to echelon form;
* `Worksheet.triangulate`, `Worksheet.reduceSquare` — the passes for determinants and inverses.
-/

namespace ExactAlgebra

open ExactAlgebra.Text

/-- **A grid that is worked on**, with the journal if one is kept. -/
structure Worksheet (m n : Nat) where
  grid : Grid m n
  journal : Option Journal

namespace Worksheet

variable {m n p q : Nat}

/-! ## Steps -/

/-- The matrix at this point. -/
def matrix (w : Worksheet m n) : Mat :=
  ⟨m, n, w.grid⟩

/-- Notes a step, if a journal is kept. -/
def note (w : Worksheet m n) (s : Step) : Worksheet m n :=
  { w with journal := w.journal.map (· ++ [s]) }

/-- A worksheet with a grid to begin with. -/
def begin (opening : String) (g : Grid m n) (journal : Option Journal) : Worksheet m n :=
  note ⟨g, journal⟩ (.start opening ⟨m, n, g⟩)

/-- Notes the grid as a result. -/
def close (closing : String) (w : Worksheet m n) : Worksheet m n :=
  w.note (.result closing w.matrix)

/-- **Makes a row operation**, and notes it with the grid that it leaves. -/
def perform (w : Worksheet m n) (op : RowOperation m) : Worksheet m n :=
  note ⟨op.apply w.grid, w.journal⟩ (op.step (op.apply w.grid))

/-- Exchanges two rows, unless they are the same. -/
def exchange (w : Worksheet m n) (i j : Fin m) : Worksheet m n :=
  if i = j then w else w.perform (.swap i j)

/-- Scales a row so that its entry in a column becomes one, unless it is. -/
def normalize (w : Worksheet m n) (row : Fin m) (col : Fin n) : Worksheet m n :=
  if w.grid.entry row col = 1 then w
  else w.perform (.scale row (1 / w.grid.entry row col))

/-- **Clears a column** in the given rows, by adding multiples of the pivot row. -/
def clear (w : Worksheet m n) (row : Fin m) (col : Fin n) (pivot : Rat) (others : List (Fin m)) :
    Worksheet m n :=
  others.foldl
    (fun w i =>
      if w.grid.entry i col = 0 then w
      else w.perform (.add i row (-w.grid.entry i col / pivot)))
    w

/-! ## Echelon forms -/

/-- **The forward pass** through the given columns, with rows from number `row` on still without a
pivot: the worksheet afterwards, and the pivots as pairs of row and column. -/
def forward (w : Worksheet m n) (row : Nat) :
    List (Fin n) → Worksheet m n × List (Fin m × Fin n)
  | [] => (w, [])
  | col :: rest =>
    if h : row < m then
      match Reduction.findPivot? w.grid col row with
      | none => forward w row rest
      | some found =>
        let top : Fin m := ⟨row, h⟩
        let exchanged := w.exchange top found
        let cleared :=
          exchanged.clear top col (exchanged.grid.entry top col) (Reduction.rowsBelow top)
        let (last, pivots) := forward cleared (row + 1) rest
        (last, (top, col) :: pivots)
    else (w, [])

/-- **The backward pass** through pivots, the last one of the list first. -/
def backward (w : Worksheet m n) : List (Fin m × Fin n) → Worksheet m n
  | [] => w
  | (row, col) :: rest =>
    ((backward w rest).normalize row col).clear row col 1 (Reduction.rowsAbove row)

/-- Both passes, with pivots in the given columns only. -/
def reduce (w : Worksheet m n) (columns : List (Fin n)) : Worksheet m n :=
  let (last, pivots) := w.forward 0 columns
  last.backward pivots

/-! ## Determinants -/

/-- **Triangulates** the given columns, and tells the determinant that follows: zero as soon as a
column has no pivot, otherwise the product of the pivots, with a sign if `odd` many rows were
exchanged. -/
def triangulate (w : Worksheet n n) (odd : Bool) (product : Rat) :
    List (Fin n) → Rat × Worksheet n n
  | [] =>
    let value := if odd then -product else product
    (value, w.close (pivotProductText odd value))
  | col :: rest =>
    match Reduction.findPivot? w.grid col col.val with
    | none => (0, w.close ("Column " ++ natText (col.val + 1) ++ " has no pivot, so det = 0"))
    | some found =>
      let exchanged := w.exchange col found
      let pivot := exchanged.grid.entry col col
      triangulate (exchanged.clear col col pivot (Reduction.rowsBelow col))
        (if col = found then odd else ! odd) (product * pivot) rest

/-- **The determinant**, directly up to two rows. -/
def determinant : {n : Nat} → Worksheet n n → Rat × Worksheet n n
  | 0, w => (1, w)
  | 1, w =>
    let value := w.grid.det
    (value, w.close ("det = " ++ Rational.text value))
  | 2, w => (w.grid.det, w.close w.grid.crossProduct)
  | n + 3, w => w.triangulate false 1 (List.finRange (n + 3))

/-! ## Inverses -/

/-- **Reduces the square block at the left** to the identity, in the given columns: the worksheet
afterwards, and the column that turned out to have no pivot. -/
def reduceSquare (w : Worksheet n (n + p)) : List (Fin n) → Worksheet n (n + p) × Option (Fin n)
  | [] => (w, none)
  | col :: rest =>
    let column := col.castAdd p
    match Reduction.findPivot? w.grid column col.val with
    | none => (w, some col)
    | some found =>
      reduceSquare
        (((w.exchange col found).normalize col column).clear col column 1
          (Reduction.otherRows col))
        rest

/-- The block of the first columns, as a matrix. -/
def leftBlock (w : Worksheet m (p + q)) : Mat :=
  ⟨m, p, Grid.ofEntries fun i j => w.grid.entry i (j.castAdd q)⟩

/-- The block of the columns behind the first ones, as a matrix. -/
def rightBlock (w : Worksheet m (p + q)) : Mat :=
  ⟨m, q, Grid.ofEntries fun i j => w.grid.entry i (j.natAdd p)⟩

end Worksheet

end ExactAlgebra
