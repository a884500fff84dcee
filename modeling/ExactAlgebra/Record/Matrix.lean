import ExactAlgebra.Matrix.Text
import ExactAlgebra.Record.Field

/-!
# Matrices as records

The fields of a matrix are its number of rows, its number of columns, and its entries row by row.

## Main definitions

* `Mat.fields`, `Mat.ofFields` — the fields of a matrix, and the matrix of some fields;
* `Mat.encode`, `Mat.decode` — the record of a matrix, and the matrix of a record.
-/

namespace ExactAlgebra.Mat

open ExactAlgebra.Text

/-- The fields of a matrix. -/
def fields (a : Mat) : List String :=
  natText a.rows :: natText a.cols :: a.texts.flatten

/-- The matrix with given entries, row by row. -/
def ofEntryList (rows cols : Nat) (entries : List Rat) : Mat :=
  ⟨rows, cols, Grid.ofEntries fun i j => entries.getD (i.val * cols + j.val) 0⟩

/-- The matrix of a given size whose entries are in the given texts. -/
def ofSized (rows cols : Int) (entries : List String) : Except Error Mat :=
  if rows < 0 ∨ cols < 0 ∨ (entries.length : Int) ≠ rows * cols then
    .error (.entryCount rows cols entries.length)
  else (entries.mapM Rational.parse).map (ofEntryList rows.toNat cols.toNat)

/-- **The matrix of some fields.** -/
def ofFields (fields : List String) : Except Error Mat :=
  match fields with
  | rows :: cols :: entries =>
    match readInt? rows, readInt? cols with
    | some rows, some cols => ofSized rows cols entries
    | _, _ => .error .missingDimensions
  | _ => .error .missingDimensions

/-- **The record of a matrix.** -/
def encode (a : Mat) : String :=
  Record.joinFields a.fields

/-- **The matrix of a record.** -/
def decode (record : String) : Except Error Mat := do
  ofFields (← Record.splitFields record)

end ExactAlgebra.Mat
