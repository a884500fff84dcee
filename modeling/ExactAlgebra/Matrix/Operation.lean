import ExactAlgebra.Cofactor.Adjugate
import ExactAlgebra.Elimination.Inverse

/-!
# Operations on one matrix

The operations that can be asked for by name. Each has a result, which is a matrix, a number or a
count, and all but the transpose have a journal.

## Main definitions

* `Operation` — the operations, with their names;
* `Operation.result` — the result of an operation;
* `Operation.journal` — its journal;
* `unionEchelon` — the reduced echelon form of one matrix with a second one carried along.
-/

namespace ExactAlgebra

open ExactAlgebra.Text

/-- **The operations on one matrix.** -/
inductive Operation where
  | echelon
  | reducedEchelon
  | rank
  | determinant
  | expansion
  | inverse
  | inverseByElimination
  | cofactors
  | adjugate
  | transpose
  deriving DecidableEq

namespace Operation

/-- The name of an operation. -/
def name : Operation → String
  | echelon => "ref"
  | reducedEchelon => "rref"
  | rank => "rank"
  | determinant => "det"
  | expansion => "det_expansion"
  | inverse => "inverse"
  | inverseByElimination => "inverse_gauss"
  | cofactors => "cofactor"
  | adjugate => "adjugate"
  | transpose => "transpose"

/-- All operations, in the alphabetical order of their names. -/
def all : List Operation :=
  [adjugate, cofactors, determinant, expansion, inverse, inverseByElimination, rank, echelon,
   reducedEchelon, transpose]

/-- The operation with a given name. -/
def ofName? (name : String) : Option Operation :=
  all.find? (·.name = name)

/-- Whether an operation has a journal. -/
def isJournaled (op : Operation) : Bool :=
  op ≠ transpose

end Operation

/-- **The result of an operation.** -/
inductive Outcome where
  | matrix (value : Mat)
  | number (value : Rat)
  | count (value : Nat)
  deriving DecidableEq

/-- The text of a result. -/
def Outcome.text : Outcome → String
  | matrix a => a.text
  | number q => Rational.text q
  | count n => natText n

namespace Mat

/-! ## The operations -/

/-- The row echelon form. -/
def echelon (a : Mat) : Mat :=
  ⟨a.rows, a.cols, (ExactAlgebra.echelon a.grid).grid⟩

/-- The reduced row echelon form. -/
def reducedEchelon (a : Mat) : Mat :=
  ⟨a.rows, a.cols, (ExactAlgebra.reducedEchelon a.grid).grid⟩

/-- The rank. -/
def rank (a : Mat) : Nat :=
  a.grid.rank

/-- The determinant of a square matrix. -/
def det (a : Mat) : Except Error Rat :=
  (a.squareGrid "The determinant").map (·.det)

/-- The determinant of a square matrix by expansion. -/
def expand (strategy : String) (a : Mat) : Except Error Rat := do
  let g ← a.squareGrid "The determinant"
  let strategy ← Strategy.ofName strategy
  return g.expandBy strategy

/-- The matrix of cofactors. -/
def cofactors (a : Mat) : Except Error Mat :=
  (a.squareGrid "The cofactor matrix").map fun g => ⟨a.rows, a.rows, g.cofactors⟩

/-- The adjugate. -/
def adjugate (a : Mat) : Except Error Mat :=
  (a.squareGrid "The cofactor matrix").map fun g => ⟨a.rows, a.rows, g.adjugate⟩

/-- **The inverse by the adjugate.** -/
def inverse (a : Mat) : Except Error Mat := do
  let g ← a.squareGrid "The inverse"
  match g.inverse? with
  | some inverse => return ⟨a.rows, a.rows, inverse⟩
  | none => throw .zeroDeterminant

/-- **The inverse by elimination.** -/
def inverseByElimination (a : Mat) : Except Error Mat := do
  let g ← a.squareGrid "The inverse"
  let r ← invertByElimination g
  return ⟨a.rows, a.rows, r.rightBlock⟩

end Mat

namespace Operation

/-- **The result of an operation.** Only the expansion looks at the name of a strategy. -/
def result (op : Operation) (strategy : String) (a : Mat) : Except Error Outcome :=
  match op with
  | echelon => .ok (.matrix a.echelon)
  | reducedEchelon => .ok (.matrix a.reducedEchelon)
  | rank => .ok (.count a.rank)
  | determinant => a.det.map .number
  | expansion => (a.expand strategy).map .number
  | inverse => a.inverse.map .matrix
  | inverseByElimination => a.inverseByElimination.map .matrix
  | cofactors => a.cofactors.map .matrix
  | adjugate => a.adjugate.map .matrix
  | transpose => .ok (.matrix a.transpose)

end Operation

/-! ## Journals -/

/-- The journal of an elimination, between the grid it began with and the one it ended with. -/
def Reduction.journal {m n : Nat} {start : Grid m n} (opening closing : String)
    (r : Reduction start) : Journal :=
  .start opening ⟨m, n, start⟩ :: (r.steps ++ [.result closing ⟨m, n, r.grid⟩])

/-- The journal of the reduced row echelon form. -/
def reducedEchelonJournal (a : Mat) : Journal :=
  (reducedEchelon a.grid).journal "Initial matrix" "Reduced row echelon form"

/-- The journal of the inverse by elimination. -/
def eliminationInverseSteps {n : Nat} (g : Grid n n) : Except Error Journal := do
  let r ← invertByElimination g
  return .start "Augmented matrix [A | I]" ⟨n, n + n, g.beside (Grid.identity n)⟩
    :: (r.steps ++ [.result "The right block is the inverse" ⟨n, n, r.rightBlock⟩])

namespace Operation

/-- **The journal of an operation**; that of the transpose is empty. -/
def journal (op : Operation) (strategy : String) (a : Mat) : Except Error Journal :=
  match op with
  | echelon => .ok ((ExactAlgebra.echelon a.grid).journal "Initial matrix" "Row echelon form")
  | reducedEchelon | rank => .ok (reducedEchelonJournal a)
  | determinant => do
    let g ← a.squareGrid "The determinant"
    return .start "Initial matrix" ⟨a.rows, a.rows, g⟩ :: determinantSteps g
  | expansion => do
    let g ← a.squareGrid "The determinant"
    let strategy ← Strategy.ofName strategy
    return expansionSteps strategy g
  | inverse => do
    let g ← a.squareGrid "The inverse"
    if g.det = 0 then throw .zeroDeterminant
    return inverseSteps g
  | inverseByElimination => do
    let g ← a.squareGrid "The inverse"
    eliminationInverseSteps g
  | cofactors => (a.squareGrid "The cofactor matrix").map cofactorSteps
  | adjugate => (a.squareGrid "The cofactor matrix").map adjugateSteps
  | transpose => .ok []

end Operation

/-! ## Two matrices -/

/-- The reduction of the left block of `[A | B]`; pivots are in the columns of `A` only. -/
def reduceUnion {m p q : Nat} (g : Grid m p) (h : Grid m q) : Reduction (g.beside h) :=
  reducedEchelonIn ((pivotColumns m p).map (Fin.castAdd q)) (g.beside h)

/-- **The reduced echelon form of one matrix, with the same operations applied to a second one.** -/
def unionEchelon (a b : Mat) : Except Error (Mat × Mat × Journal) :=
  if same : b.rows = a.rows then
    let r := reduceUnion a.grid (b.grid.cast same)
    .ok (⟨a.rows, a.cols, r.leftBlock⟩, ⟨a.rows, b.cols, r.rightBlock⟩,
      r.journal "Augmented matrix [A | B]" "RREF of A with B carried along")
  else .error (.augmentRows a.rows b.rows)

end ExactAlgebra
