import ExactAlgebra.Json.Basic
import ExactAlgebra.Matrix.Text
import ExactAlgebra.Vector.Basic

/-!
# Bodies of requests

A request brings its arguments in a JSON object. Each argument has a type; a value of another type
is taken if it says the same thing, such as `1.0` for an integer or `"yes"` for a truth value, and
refused otherwise. Members that are not asked for do not matter.

## Main definitions

* `readText`, `readTruth`, `readCell` — arguments of the simple types;
* `readMatrix`, `readVector` — matrices and vectors, as texts or as lists of cells;
* `MatrixRequest`, `SystemRequest`, `PairRequest` — the bodies.
-/

namespace ExactAlgebra.Service

/-! ## Simple types -/

/-- A member of a body, which has to be an object. -/
def member? (name : String) : Json → Option Json
  | .object members => Json.Members.get? name members
  | _ => none

/-- A text. -/
def readText : Json → Option String
  | .string s => some s
  | _ => none

/-- The words for true and false. -/
def truthWords : List (String × Bool) :=
  [("0", false), ("off", false), ("f", false), ("false", false), ("n", false), ("no", false),
   ("1", true), ("on", true), ("t", true), ("true", true), ("y", true), ("yes", true)]

/-- A truth value: itself, zero or one, or one of the words in any case. -/
def readTruth : Json → Option Bool
  | .bool b => some b
  | .int 0 => some false
  | .int 1 => some true
  | .float x =>
    if x.value? = some 0 then some false else if x.value? = some 1 then some true else none
  | .string s =>
    (truthWords.find? (·.1 = String.ofList (s.toList.map Char.toLower))).map (·.2)
  | _ => none

/-- The range of the doubles that are taken for integers. -/
def integerRange : Nat :=
  9223372036854775808

/-- The whole number that a double is. -/
def wholeNumber? (x : Binary64) : Option Int :=
  match x.value? with
  | some q => if q.den = 1 ∧ q.num.natAbs < integerRange then some q.num else none
  | none => none

/-- A cell: an integer or a text. -/
def readCell : Json → Option Cell
  | .int n => some (.number n)
  | .string s => some (.text s)
  | .bool b => some (.number (if b then 1 else 0))
  | .float x => (wholeNumber? x).map fun n => .number n
  | _ => none

/-! ## Matrices and vectors -/

/-- **A matrix as it was sent**: a text, or cells row by row. -/
inductive MatrixInput where
  | typed (text : String)
  | cells (rows : List (List Cell))

/-- **A vector as it was sent**: a text, or cells. -/
inductive VectorInput where
  | typed (text : String)
  | cells (entries : List Cell)

/-- The matrix that was sent. -/
def MatrixInput.matrix : MatrixInput → Except Error Mat
  | typed s => Mat.parse s
  | cells rows => Mat.ofCells rows

/-- The vector that was sent. -/
def VectorInput.vector : VectorInput → Except Error Vec
  | typed s => Vec.parse s
  | cells entries => Vec.ofCells entries

/-- Cells in a list. -/
def readCells : Json → Option (List Cell)
  | .array items => items.mapM readCell
  | _ => none

/-- A matrix. -/
def readMatrix : Json → Option MatrixInput
  | .string s => some (.typed s)
  | .array rows => (rows.mapM readCells).map .cells
  | _ => none

/-- A vector. -/
def readVector : Json → Option VectorInput
  | .string s => some (.typed s)
  | value => (readCells value).map .cells

/-! ## Bodies -/

/-- A text in a body. -/
def readTextBody (name : String) (body : Json) : Option String := do
  readText (← member? name body)

/-- A member that may be missing. -/
def readOptional {α : Type} (read : Json → Option α) (default : α) (name : String) (body : Json) :
    Option α :=
  match member? name body with
  | none => some default
  | some value => read value

/-- **A request for an operation on a matrix.** -/
structure MatrixRequest where
  matrix : MatrixInput
  steps : Bool
  strategy : String

/-- Reads a request for an operation. -/
def readMatrixRequest (body : Json) : Option MatrixRequest := do
  let matrix ← readMatrix (← member? "matrix" body)
  let steps ← readOptional readTruth false "steps" body
  let strategy ← readOptional readText "first_row" "strategy" body
  return ⟨matrix, steps, strategy⟩

/-- **A request to solve a system.** -/
structure SystemRequest where
  coefficients : MatrixInput
  right : VectorInput

/-- Reads a request to solve a system. -/
def readSystemRequest (body : Json) : Option SystemRequest := do
  let coefficients ← readMatrix (← member? "a" body)
  let right ← readVector (← member? "b" body)
  return ⟨coefficients, right⟩

/-- **A request to compare two sets of vectors.** -/
structure PairRequest where
  first : MatrixInput
  second : MatrixInput

/-- Reads a request to compare. -/
def readPairRequest (body : Json) : Option PairRequest := do
  let first ← readMatrix (← member? "a" body)
  let second ← readMatrix (← member? "b" body)
  return ⟨first, second⟩

end ExactAlgebra.Service
