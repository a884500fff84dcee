import ExactAlgebra.Elimination.Journal

/-!
# Elementary row operations

Two rows change places, a row is multiplied by a number, a multiple of one row is added to another.
Every algorithm of elimination is a sequence of these, and all of them can be undone as long as the
factor of a scaling is not zero and no row is added to itself.

## Main definitions

* `RowOperation` — the operations on the rows of a matrix with `m` rows;
* `RowOperation.apply`, `RowOperation.applyAll` — their effect on a grid;
* `RowOperation.step`, `RowOperation.steps` — how they are journaled;
* `Mat.swapRows`, `Mat.scaleRow`, `Mat.addScaledRow` — the operations with checked arguments.
-/

namespace ExactAlgebra

open ExactAlgebra.Text

/-- **An elementary row operation.** -/
inductive RowOperation (m : Nat) where
  | swap (first second : Fin m)
  | scale (row : Fin m) (factor : Rat)
  /-- Adds `factor` times the row `source` to the row `target`. -/
  | add (target source : Fin m) (factor : Rat)
  deriving DecidableEq

namespace RowOperation

variable {m n : Nat}

/-! ## Effect -/

/-- **The effect of an operation.** -/
def apply (op : RowOperation m) (g : Grid m n) : Grid m n :=
  match op with
  | swap first second => (g.setRow first (g.row second)).setRow second (g.row first)
  | scale row factor => g.setRow row ((g.row row).map (· * factor))
  | add target source factor =>
    g.setRow target (Vector.zipWith (fun t s => t + factor * s) (g.row target) (g.row source))

/-- The effect of several operations, the first one in the list first. -/
def applyAll (ops : List (RowOperation m)) (g : Grid m n) : Grid m n :=
  ops.foldl (fun g op => op.apply g) g

/-! ## Journal -/

/-- The name of a row, counted from one. -/
def label (i : Fin m) : String :=
  "R" ++ natText (i.val + 1)

/-- The name of an operation in a journal. -/
def kind : RowOperation m → StepKind
  | swap _ _ => .swapRows
  | scale _ _ => .scaleRow
  | add _ _ _ => .addScaledRow

/-- **An operation in words**, `R1 ↔ R2`, `R1 → (1/2)·R1`, `R2 → R2 + 3·R1`. -/
def text : RowOperation m → String
  | swap first second => label first ++ " ↔ " ++ label second
  | scale row factor => label row ++ " → " ++ Rational.factorText factor ++ "·" ++ label row
  | add target source factor =>
    label target ++ " → " ++ label target ++ " + " ++ Rational.factorText factor ++ "·"
      ++ label source

/-- The rows and the factor of an operation. -/
def detail : RowOperation m → Detail
  | swap first second => .operation first (some second) none
  | scale row factor => .operation row none (some factor)
  | add target source factor => .operation target (some source) (some factor)

/-- The step of an operation, with the grid that it leaves. -/
def step (op : RowOperation m) (after : Grid m n) : Step :=
  ⟨op.kind, op.text, ⟨m, n, after⟩, op.detail⟩

/-- **The steps of several operations**, each with the grid that it leaves. -/
def steps (ops : List (RowOperation m)) (g : Grid m n) : Journal :=
  match ops with
  | [] => []
  | op :: rest => op.step (op.apply g) :: steps rest (op.apply g)

end RowOperation

namespace Mat

/-! ## Checked operations -/

/-- **Exchanges two rows.** -/
def swapRows (a : Mat) (first second : Int) : Except Error (RowOperation a.rows) := do
  let i ← a.rowIndex first
  let j ← a.rowIndex second
  return .swap i j

/-- **Multiplies a row** by a number other than zero. -/
def scaleRow (a : Mat) (row : Int) (factor : Cell) : Except Error (RowOperation a.rows) := do
  let q ← factor.value
  if q = 0 then throw .zeroScale
  let i ← a.rowIndex row
  return .scale i q

/-- **Adds a multiple of one row to another.** -/
def addScaledRow (a : Mat) (target source : Int) (factor : Cell) :
    Except Error (RowOperation a.rows) := do
  let q ← factor.value
  let s ← a.rowIndex source
  let t ← a.rowIndex target
  return .add t s q

/-- The matrix after a row operation. -/
def operate (a : Mat) (op : RowOperation a.rows) : Mat :=
  ⟨a.rows, a.cols, op.apply a.grid⟩

/-- The step of a row operation. -/
def operationStep (a : Mat) (op : RowOperation a.rows) : Step :=
  op.step (op.apply a.grid)

end Mat

end ExactAlgebra
