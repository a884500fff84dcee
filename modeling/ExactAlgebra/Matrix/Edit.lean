import ExactAlgebra.Matrix.Basic

/-!
# Editing matrices

Changes of single entries, rows and columns. An edit answers the changed matrix or the reason why it
is refused; the matrix that is edited is never half changed.

## Main definitions

* `set`, `setRow` — new values for an entry or a row;
* `addRow`, `addColumn`, `deleteRow`, `deleteColumn`, `resize` — changes of the shape.
-/

namespace ExactAlgebra.Mat

/-- A list as a vector, if it has the right length. -/
def sized? (n : Nat) (values : List Rat) : Option (Vector Rat n) :=
  if h : values.length = n then some (Vector.cast h (Vector.mk values.toArray rfl)) else none

/-- **Sets an entry.** -/
def set (a : Mat) (i j : Int) (cell : Cell) : Except Error Mat := do
  let i ← a.rowIndex i
  let j ← a.columnIndex j
  let q ← cell.value
  return ⟨a.rows, a.cols, a.grid.setEntry i j q⟩

/-- **Replaces a row.** -/
def setRow (a : Mat) (i : Int) (cells : List Cell) : Except Error Mat := do
  let index ← a.rowIndex i
  let values ← Cell.values cells
  match sized? a.cols values with
  | some row => return ⟨a.rows, a.cols, a.grid.setRow index row⟩
  | none => throw (.rowLength i a.cols values.length)

/-- The values of a new line: zeros unless some are given. -/
def lineValues (size : Nat) (cells : Option (List Cell)) : Except Error (List Rat) :=
  match cells with
  | none => do
    Error.checkLength size
    return List.replicate size 0
  | some given => Cell.values given

/-- **Inserts a row** in front of the one with the given number; without a number it comes last,
without values it is zero. -/
def addRow (a : Mat) (cells : Option (List Cell)) (index : Option Int) : Except Error Mat := do
  let values ← lineValues a.cols cells
  match sized? a.cols values with
  | none => throw (.newRowLength a.cols values.length)
  | some row =>
    let i := index.getD a.rows
    if h : 0 ≤ i ∧ i ≤ a.rows then
      return ⟨a.rows + 1, a.cols, a.grid.insertIdx i.toNat row (by omega)⟩
    else throw (.rowOutOfRange i a.rows)

/-- **Inserts a column** in front of the one with the given number; without a number it comes last,
without values it is zero. -/
def addColumn (a : Mat) (cells : Option (List Cell)) (index : Option Int) : Except Error Mat := do
  let values ← lineValues a.rows cells
  match sized? a.rows values with
  | none => throw (.newColumnLength a.rows values.length)
  | some column =>
    let j := index.getD a.cols
    if h : 0 ≤ j ∧ j ≤ a.cols then
      return ⟨a.rows, a.cols + 1,
        Vector.zipWith (fun row q => row.insertIdx j.toNat q (by omega)) a.grid column⟩
    else throw (.columnOutOfRange j a.cols)

/-- Deletes a row. -/
def deleteRow (a : Mat) (i : Int) : Except Error Mat := do
  let i ← a.rowIndex i
  return ⟨a.rows - 1, a.cols, a.grid.eraseRow i⟩

/-- Deletes a column. -/
def deleteColumn (a : Mat) (j : Int) : Except Error Mat := do
  let j ← a.columnIndex j
  return ⟨a.rows, a.cols - 1, a.grid.eraseColumn j⟩

/-- **Changes the size**: the overlap is kept, and new entries are zero. -/
def resize (a : Mat) (rows cols : Int) : Except Error Mat := do
  checkShape rows cols
  return ⟨rows.toNat, cols.toNat, a.grid.resize rows.toNat cols.toNat⟩

end ExactAlgebra.Mat
