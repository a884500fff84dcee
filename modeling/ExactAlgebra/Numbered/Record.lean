import ExactAlgebra.Matrix.Edit
import ExactAlgebra.Numbered.Elimination
import ExactAlgebra.Record.Result
import ExactAlgebra.Record.System

/-!
# Records by the numbers of their fields

The readers of records, in the order of their steps. A field is asked for by its number, and an
entry is written by the numbers of its row and its column; nothing in the types says that they are
there, and whatever is not there is refused. Only the steps that are guarded answer such a refusal
by saying that the record is malformed; all others let it out.

## Main definitions

* `Error.isBadValue` — the causes that a guard around the reading of values answers;
* `Numbered.guarded` — a step with a guard;
* `Numbered.decodeMatrix`, `Numbered.decodeResult`, `Numbered.decodeSolution` — the readers.
-/

namespace ExactAlgebra

open ExactAlgebra.Text

/-- Whether the cause is that a value cannot be used. -/
def Error.isBadValue (e : Error) : Bool :=
  match e.kind with
  | .invalidArgument | .domain | .notInvertible | .badValue => true
  | .divisionByZero | .outOfRange | .missingKey | .wrongType | .missingPart | .overflow | .memory
  | .file | .address => false

namespace Numbered

/-- **A guarded step**: the causes that are caught are answered by another one. -/
def guarded {α : Type} (caught : Error → Bool) (answer : Error → Error) (step : Except Error α) :
    Except Error α :=
  step.mapError fun e => if caught e then answer e else e

/-! ## Matrices -/

/-- The two sizes in the first fields. -/
def matrixSize (fields : List String) : Except Error (Int × Int) :=
  guarded (fun e => e.isBadValue || e.kind = .outOfRange) (fun _ => .missingDimensions) do
    let rows ← readInt (← memberAt fields 0)
    let cols ← readInt (← memberAt fields 1)
    return (rows, cols)

/-- The matrix of zeros. -/
def zeros (rows cols : Int) : Except Error Mat :=
  if rows < 0 ∨ cols < 0 then .error (.negativeSize rows cols)
  else .ok (Mat.zero rows.toNat cols.toNat)

/-- The row and the column of an entry with a number, if the entries are counted row by row. -/
def placeOf (number cols : Int) : Except Error (Int × Int) :=
  if cols = 0 then .error .divisionByZero else .ok (number.fdiv cols, number.fmod cols)

/-- Writes an entry, which is given with its number. -/
def writeField (cols : Int) (a : Mat) (entry : String × Nat) : Except Error Mat := do
  let (row, col) ← placeOf entry.2 cols
  a.set row col (.text entry.1)

/-- The matrix of some fields. -/
def matrixOfFields (fields : List String) : Except Error Mat := do
  let (rows, cols) ← matrixSize fields
  let entries := fields.drop 2
  if rows < 0 ∨ cols < 0 ∨ (entries.length : Int) ≠ rows * cols then
    throw (.entryCount rows cols entries.length)
  let start ← zeros rows cols
  entries.zipIdx.foldlM (writeField cols) start

/-- **The matrix of a record.** -/
def decodeMatrix (record : String) : Except Error Mat := do
  matrixOfFields (← Record.splitFields record)

/-! ## Results -/

/-- The result of a tag and the fields behind it. -/
def resultOfFields (tag : String) (fields : List String) : Except Error Result := do
  if tag = "SCALAR" ∧ fields.length = 1 then
    return .scalar (← Rational.parse (← memberAt fields 0))
  else if tag = "VECTOR" then
    return .vector ⟨← fields.mapM Rational.parse⟩
  else if tag = "MATRIX" then
    return .matrix (← matrixOfFields fields)
  else if tag = "STRING" ∧ fields.length = 1 then
    return .text (← memberAt fields 0)
  else throw (.malformedRecord tag)

/-- Whether a record is as long as it should be, and begins as it should. -/
def isHeaded (length : Nat) (head : String) (fields : List String) : Except Error Bool :=
  if fields.length = length then (memberAt fields 0).map (· = head) else .ok false

/-- **The result of a record** in either layout. -/
def decodeResult (record : String) : Except Error Result := do
  let fields ← Result.fieldsOf record
  if ← isHeaded 1 "VECTOR" fields then return .vector ⟨[]⟩
  else resultOfFields (← memberAt fields 0) (fields.drop 1)

/-! ## Solutions of systems -/

/-- The ranks, the numbers and the two types of solution in a record. -/
def solutionInfo (fields : List String) : Except Error (SystemInfo × SolutionType) := do
  let rank ← readInt (← memberAt fields 2)
  let augmentedRank ← readInt (← memberAt fields 3)
  let unknowns ← readInt (← memberAt fields 4)
  let equations ← readInt (← memberAt fields 5)
  let infoType ← SolutionType.ofName (← memberAt fields 6)
  let description ← memberAt fields 7
  let type ← SolutionType.ofName (← memberAt fields 1)
  return (⟨rank, augmentedRank, unknowns, equations, infoType, description⟩, type)

/-- **The solution of a record.** The matrices are read outside of the guard. -/
def decodeSolution (record : String) : Except Error SystemSolution := do
  let fields ← Record.splitFields record
  if ← isHeaded 12 SystemSolution.mark fields then
    let (info, type) ←
      guarded Error.isBadValue (fun e => .corruptSolution e.message) (solutionInfo fields)
    return {
      solutionType := type
      particular := ← decodeMatrix (← memberAt fields 9)
      homogeneous := ← decodeMatrix (← memberAt fields 10)
      info := info
      description := ← memberAt fields 8
      augmented := ← decodeMatrix (← memberAt fields 11) }
  else throw .notSolution

end Numbered

end ExactAlgebra
