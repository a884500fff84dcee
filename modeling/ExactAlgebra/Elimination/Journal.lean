import ExactAlgebra.Matrix.Text

/-!
# Journals

An algorithm on matrices can be followed step by step: a journal lists what was done, in order, and
every step shows the matrix as it was then.

## Main definitions

* `StepKind` — what a step is;
* `Detail` — the numbers that belong to a step;
* `Step`, `Journal` — a step, and a list of them;
* `Journal.text` — a journal for reading.
-/

namespace ExactAlgebra

open ExactAlgebra.Text

/-- **What a step is.** -/
inductive StepKind where
  | swapRows
  | scaleRow
  | addScaledRow
  | rowExpansion
  | columnExpansion
  | minor
  | start
  | result
  deriving DecidableEq

/-- The name of a kind of step. -/
def StepKind.name : StepKind → String
  | swapRows => "swap_rows"
  | scaleRow => "scale_row"
  | addScaledRow => "add_scaled_row"
  | rowExpansion => "row_expansion"
  | columnExpansion => "column_expansion"
  | minor => "submatrix_calculation"
  | start => "initial_state"
  | result => "result_state"

/-- **The numbers that belong to a step.** Rows, columns and positions are counted from zero. -/
inductive Detail where
  | nothing
  /-- The rows of a row operation, the changed one first, and its factor. -/
  | operation (row : Nat) (other : Option Nat) (factor : Option Rat)
  /-- The line of an expansion. -/
  | line (index : Nat)
  /-- A term of an expansion: its line, its position there, the entry, its cofactor if it was
  needed, the term, and the sum so far. -/
  | term (index position : Nat) (entry : Rat) (cofactor : Option Rat) (value total : Rat)
  /-- The sum of an expansion. -/
  | total (value : Rat)
  deriving DecidableEq

/-- **A step**, with the matrix as it was after it. -/
structure Step where
  kind : StepKind
  description : String
  matrix : Mat
  detail : Detail
  deriving DecidableEq

namespace Step

/-- The first step of an algorithm. -/
def start (description : String) (a : Mat) : Step :=
  ⟨.start, description, a, .nothing⟩

/-- A step that shows a result. -/
def result (description : String) (a : Mat) : Step :=
  ⟨.result, description, a, .nothing⟩

/-- The sum so far, for a step of an expansion. -/
def total? (s : Step) : Option Rat :=
  match s.detail with
  | .term _ _ _ _ _ total => some total
  | .total value => some value
  | _ => none

/-- **The text of a step.** -/
def text (s : Step) : String :=
  let remark := match s.total? with
    | some total => "  (running total: " ++ Rational.text total ++ ")"
    | none => ""
  s.description ++ remark ++ "\n" ++ s.matrix.text

end Step

/-- **A list of steps**, in the order in which they were made. -/
abbrev Journal :=
  List Step

namespace Journal

/-- The texts of the steps, numbered from `n` on. -/
def numbered (n : Nat) : Journal → List String
  | [] => []
  | s :: rest => ("Step " ++ natText n ++ ": " ++ s.text) :: numbered (n + 1) rest

/-- **A journal for reading.** -/
def text (journal : Journal) : String :=
  "\n\n".intercalate (numbered 1 journal)

end Journal

end ExactAlgebra
