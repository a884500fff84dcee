import ExactAlgebra.Matrix.Cell
import ExactAlgebra.Matrix.Grid

/-!
# Matrices

A matrix is a grid together with its size, so that matrices of all sizes are values of one type. Its
operations check what a grid has in its type: shapes that have to agree, indices that have to be in
range.

## Main definitions

* `Mat` — a matrix of any size;
* `ofLists`, `toLists` — a matrix from its rows and back;
* `rowIndex`, `columnIndex`, `squareGrid` — the checks;
* `get`, `row`, `column`, `add`, `sub`, `mul`, `augment`, `leftPart`, `rightPart`, `minor`.
-/

namespace ExactAlgebra

/-- **A matrix.** Zero rows or columns are allowed. -/
structure Mat where
  rows : Nat
  cols : Nat
  grid : Grid rows cols
  deriving DecidableEq

namespace Mat

/-! ## Construction -/

/-- Refuses a size that is negative or too large for the entries to be written down. Without rows
there are no entries. -/
def checkShape (rows cols : Int) : Except Error Unit :=
  if rows < 0 ∨ cols < 0 then .error (.negativeSize rows cols)
  else if rows = 0 then .ok ()
  else do
    Error.checkLength cols.toNat
    if Error.roomLimit ≤ rows then throw .noRoom

/-- The matrix with the same number everywhere. -/
def filled (rows cols : Int) (cell : Cell) : Except Error Mat := do
  if rows < 0 ∨ cols < 0 then throw (.negativeSize rows cols)
  let q ← cell.value
  checkShape rows cols
  return ⟨rows.toNat, cols.toNat, Grid.fill rows.toNat cols.toNat q⟩

/-- The matrix of zeros. -/
def zero (rows cols : Nat) : Mat :=
  ⟨rows, cols, Grid.zero rows cols⟩

/-- The identity of a given size. -/
def identity (n : Int) : Except Error Mat := do
  checkShape n n
  return ⟨n.toNat, n.toNat, Grid.identity n.toNat⟩

/-- The square matrix with the given numbers on the diagonal. -/
def diagonal (values : List Rat) : Mat :=
  ⟨values.length, values.length, Grid.diagonal fun i => values[i]⟩

/-- The number of entries of the first row. -/
def widthOf (rows : List (List Rat)) : Nat :=
  (rows.head?.map List.length).getD 0

/-- The matrix with given rows, all as long as the first one. -/
def ofRectangle (rows : List (List Rat)) : Mat :=
  ⟨rows.length, widthOf rows,
   Grid.ofEntries fun i j => (rows[i]).getD j.val 0⟩

/-- **The matrix with given rows**, which have to be equally long. -/
def ofLists (rows : List (List Rat)) : Except Error Mat :=
  if rows.all (·.length = widthOf rows) then .ok (ofRectangle rows) else .error .raggedRows

/-- The matrix with given cells, row by row. All cells are read before the lengths of the rows are
compared. -/
def ofCells (rows : List (List Cell)) : Except Error Mat := do
  ofLists (← rows.mapM Cell.values)

/-- The rows of a matrix. -/
def toLists (a : Mat) : List (List Rat) :=
  a.grid.toList.map (·.toList)

/-! ## Checks -/

/-- The row with a given number, counted from zero. -/
def rowIndex (a : Mat) (i : Int) : Except Error (Fin a.rows) :=
  if h : 0 ≤ i ∧ i < a.rows then .ok ⟨i.toNat, by omega⟩ else .error (.rowOutOfRange i a.rows)

/-- The column with a given number, counted from zero. -/
def columnIndex (a : Mat) (j : Int) : Except Error (Fin a.cols) :=
  if h : 0 ≤ j ∧ j < a.cols then .ok ⟨j.toNat, by omega⟩
  else .error (.columnOutOfRange j a.cols)

/-- Whether there are as many rows as columns. -/
def isSquare (a : Mat) : Bool :=
  a.rows = a.cols

/-- **The grid of a square matrix**; the operation that needs it is named in the refusal. -/
def squareGrid (operation : String) (a : Mat) : Except Error (Grid a.rows a.rows) :=
  if same : a.cols = a.rows then .ok (a.grid.castCols same)
  else .error (.notSquare operation a.rows a.cols)

/-! ## Access -/

/-- An entry. -/
def get (a : Mat) (i j : Int) : Except Error Rat := do
  let i ← a.rowIndex i
  let j ← a.columnIndex j
  return a.grid.entry i j

/-- The entries of a row. -/
def row (a : Mat) (i : Int) : Except Error (List Rat) := do
  let i ← a.rowIndex i
  return (a.grid.row i).toList

/-- The entries of a column. -/
def column (a : Mat) (j : Int) : Except Error (List Rat) := do
  let j ← a.columnIndex j
  return (a.grid.column j).toList

/-- Whether all entries of a row are zero. -/
def isZeroRow (a : Mat) (i : Int) : Except Error Bool := do
  let i ← a.rowIndex i
  return a.grid.isZeroRow i

/-- All columns. -/
def columns (a : Mat) : List (List Rat) :=
  (List.finRange a.cols).map fun j => (a.grid.column j).toList

/-- The column of the first entry that is not zero, for each row that has one. -/
def leadingColumns (a : Mat) : List (Fin a.cols) :=
  (List.finRange a.rows).filterMap a.grid.leadingColumn?

/-! ## Arithmetic -/

/-- Rows become columns. -/
def transpose (a : Mat) : Mat :=
  ⟨a.cols, a.rows, a.grid.transpose⟩

/-- Every entry multiplied by a number. -/
def scale (a : Mat) (q : Rat) : Mat :=
  ⟨a.rows, a.cols, a.grid.scale q⟩

/-- The opposite. -/
def neg (a : Mat) : Mat :=
  a.scale (-1)

/-- Applies an operation on grids of one size to two matrices that have to have the same shape. -/
def combine (operation : String) (f : {m n : Nat} → Grid m n → Grid m n → Grid m n) (a b : Mat) :
    Except Error Mat :=
  if same : b.rows = a.rows ∧ b.cols = a.cols then
    .ok ⟨a.rows, a.cols, f a.grid ((b.grid.castCols same.2).cast same.1)⟩
  else .error (.unlikeShapes operation a.rows a.cols b.rows b.cols)

/-- **The sum** of two matrices of the same shape. -/
def add (a b : Mat) : Except Error Mat :=
  combine "add" Grid.add a b

/-- The difference of two matrices of the same shape. -/
def sub (a b : Mat) : Except Error Mat :=
  combine "subtract" Grid.sub a b

/-- **The product** of two matrices whose inner sizes agree. -/
def mul (a b : Mat) : Except Error Mat :=
  if same : a.cols = b.rows then .ok ⟨a.rows, b.cols, (a.grid.castCols same).mul b.grid⟩
  else .error (.unlikeFactors a.rows a.cols b.rows b.cols)

/-! ## Blocks -/

/-- **Two matrices side by side**, `[a | b]`. -/
def augment (a b : Mat) : Except Error Mat :=
  if same : b.rows = a.rows then .ok ⟨a.rows, a.cols + b.cols, a.grid.beside (b.grid.cast same)⟩
  else .error (.augmentRows a.rows b.rows)

/-- The first columns. -/
def leftPart (a : Mat) (n : Int) : Except Error Mat :=
  if h : 0 ≤ n ∧ n ≤ a.cols then .ok ⟨a.rows, n.toNat, a.grid.leftPart n.toNat (by omega)⟩
  else .error (.columnCount n a.cols)

/-- The columns from a given one on. -/
def rightPart (a : Mat) (n : Int) : Except Error Mat :=
  if h : 0 ≤ n ∧ n ≤ a.cols then
    .ok ⟨a.rows, a.cols - n.toNat, a.grid.rightPart n.toNat (by omega)⟩
  else .error (.columnOutside n a.cols)

/-- **The matrix without one row and one column.** -/
def minor (a : Mat) (i j : Int) : Except Error Mat := do
  let i ← a.rowIndex i
  let j ← a.columnIndex j
  return ⟨a.rows - 1, a.cols - 1, a.grid.minor i j⟩

end Mat

end ExactAlgebra
