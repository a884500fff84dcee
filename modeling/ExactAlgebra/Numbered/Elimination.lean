import ExactAlgebra.Elimination.Determinant
import ExactAlgebra.Elimination.RowOperation

/-!
# Eliminations by row and column numbers

The algorithms that work by elimination, as loops over the numbers of rows and columns. Nothing in
the types says that a number is in range: whatever is asked for by its number, be it an entry, a row
or a place in a list, is refused if there is none. A draft is the matrix that is worked on, with the
journal if one is kept.

## Main definitions

* `between`, `memberAt` — the numbers that a loop runs through, and a place in a list;
* `Draft`, `Draft.swap`, `Draft.scale`, `Draft.add` — row operations in place;
* `Draft.forward`, `Draft.backward`, `Draft.reduce` — the passes to echelon form;
* `Draft.determinant`, `Draft.reduceSquare` — the passes for determinants and inverses;
* `Numbered.echelon`, `Numbered.reducedEchelon`, `Numbered.rank`, `Numbered.det`,
  `Numbered.inverseByElimination`, `Numbered.union` — the algorithms.
-/

namespace ExactAlgebra

open ExactAlgebra.Text

/-! ## Numbers -/

/-- The numbers from `first` on that are less than `last`. -/
def between (first last : Nat) : List Nat :=
  (List.range last).filter (first ≤ ·)

/-- The member of a list at a place. -/
def memberAt {α : Type} (xs : List α) (i : Nat) : Except Error α :=
  match xs[i]? with
  | some x => .ok x
  | none => .error .noEntryAt

/-- Refuses a matrix that is not square; the operation that needs one is named. -/
def Mat.checkSquare (operation : String) (a : Mat) : Except Error Unit :=
  if a.isSquare then .ok () else .error (.notSquare operation a.rows a.cols)

/-- A journal with one more step, if it is kept. -/
def noted (journal : Option Journal) (s : Step) : Option Journal :=
  journal.map (· ++ [s])

/-! ## Drafts -/

/-- **A matrix that is worked on**, with the journal if one is kept. -/
structure Draft where
  matrix : Mat
  journal : Option Journal

namespace Draft

/-- Notes a step, if a journal is kept. -/
def note (d : Draft) (s : Step) : Draft :=
  ⟨d.matrix, noted d.journal s⟩

/-- A draft with a matrix to begin with. -/
def start (opening : String) (a : Mat) (journal : Option Journal) : Draft :=
  note ⟨a, journal⟩ (.start opening a)

/-- Notes the matrix as a result. -/
def close (closing : String) (d : Draft) : Draft :=
  d.note (.result closing d.matrix)

/-- Makes a row operation that has passed its checks, and notes it. -/
def perform (d : Draft) (op : RowOperation d.matrix.rows) : Draft :=
  note ⟨d.matrix.operate op, d.journal⟩ (d.matrix.operationStep op)

/-- **Exchanges two rows.** -/
def swap (d : Draft) (first second : Nat) : Except Error Draft :=
  (d.matrix.swapRows first second).map d.perform

/-- **Multiplies a row** by a number. -/
def scale (d : Draft) (row : Nat) (factor : Rat) : Except Error Draft :=
  (d.matrix.scaleRow row (.number factor)).map d.perform

/-- **Adds a multiple of one row to another.** -/
def add (d : Draft) (target source : Nat) (factor : Rat) : Except Error Draft :=
  (d.matrix.addScaledRow target source (.number factor)).map d.perform

/-! ## Pivots -/

/-- The first row from number `first` on that is not zero in a column. -/
def findPivot? (d : Draft) (col first : Nat) : Except Error (Option Nat) :=
  (between first d.matrix.rows).findM? fun i => do
    return (← d.matrix.get i col) ≠ 0

/-- Exchanges two rows, unless they are the same. -/
def exchange (d : Draft) (i j : Nat) : Except Error Draft :=
  if i = j then .ok d else d.swap i j

/-- Scales a row so that its entry in a column becomes one, unless it is. -/
def normalize (d : Draft) (row col : Nat) : Except Error Draft := do
  let pivot ← d.matrix.get row col
  if pivot = 1 then return d else d.scale row (1 / pivot)

/-- Clears the entry of a row in a column, by adding a multiple of the pivot row. -/
def clearEntry (row col : Nat) (pivot : Rat) (d : Draft) (i : Nat) : Except Error Draft := do
  let entry ← d.matrix.get i col
  if entry = 0 then return d else d.add i row (-entry / pivot)

/-- **Clears a column** in the given rows. -/
def clear (d : Draft) (row col : Nat) (pivot : Rat) (others : List Nat) : Except Error Draft :=
  others.foldlM (clearEntry row col pivot) d

/-- **Brings a pivot to its row**, and clears the column below it: the pivot, and the draft
afterwards. -/
def clearBelow (d : Draft) (row found col : Nat) : Except Error (Rat × Draft) := do
  let exchanged ← d.exchange row found
  let pivot ← exchanged.matrix.get row col
  let cleared ← exchanged.clear row col pivot (between (row + 1) exchanged.matrix.rows)
  return (pivot, cleared)

/-! ## Echelon forms -/

/-- **The forward pass** through the given columns, with rows from number `row` on still without a
pivot: the draft afterwards, and the columns of the pivots. -/
def forward (d : Draft) (row : Nat) : List Nat → Except Error (Draft × List Nat)
  | [] => .ok (d, [])
  | col :: rest =>
    if d.matrix.rows ≤ row then .ok (d, [])
    else do
      match ← d.findPivot? col row with
      | none => forward d row rest
      | some found =>
        let (_, cleared) ← d.clearBelow row found col
        let (last, pivots) ← forward cleared (row + 1) rest
        return (last, col :: pivots)

/-- The backward step for the pivot of a row; its column is looked up. -/
def backwardStep (pivots : List Nat) (row : Nat) (d : Draft) : Except Error Draft := do
  let col ← memberAt pivots row
  let normalized ← d.normalize row col
  normalized.clear row col 1 (List.range row)

/-- **The backward pass** through pivots, whose columns are given, the last one first. -/
def backward (d : Draft) (pivots : List Nat) : Except Error Draft :=
  (List.range pivots.length).foldrM (backwardStep pivots) d

/-- Both passes, with pivots in the given columns only. -/
def reduce (d : Draft) (columns : List Nat) : Except Error Draft := do
  let (last, pivots) ← d.forward 0 columns
  last.backward pivots

/-! ## Determinants -/

/-- **Triangulates** the given columns, and tells the determinant that follows. -/
def triangulate (d : Draft) (odd : Bool) (product : Rat) : List Nat → Except Error (Rat × Draft)
  | [] =>
    let value := if odd then -product else product
    .ok (value, d.close (pivotProductText odd value))
  | col :: rest => do
    match ← d.findPivot? col col with
    | none =>
      return (0, d.close ("Column " ++ natText (col + 1) ++ " has no pivot, so det = 0"))
    | some found =>
      let (pivot, cleared) ← d.clearBelow col found col
      triangulate cleared (if col = found then odd else ! odd) (product * pivot) rest

/-- **The determinant**, directly up to two rows. -/
def determinant (d : Draft) : Except Error (Rat × Draft) :=
  match d.matrix.rows with
  | 0 => .ok (1, d)
  | 1 => do
    let value ← d.matrix.get 0 0
    return (value, d.close ("det = " ++ Rational.text value))
  | 2 => do
    let a ← d.matrix.get 0 0
    let b ← d.matrix.get 0 1
    let c ← d.matrix.get 1 0
    let e ← d.matrix.get 1 1
    return (a * e - b * c, d.close (crossProductText a b c e))
  | n + 3 => d.triangulate false 1 (List.range (n + 3))

/-! ## Inverses -/

/-- **Reduces the square block at the left** to the identity, in the given columns. -/
def reduceSquare (d : Draft) : List Nat → Except Error Draft
  | [] => .ok d
  | col :: rest => do
    match ← d.findPivot? col col with
    | none => throw (.noPivot (col + 1))
    | some found =>
      let exchanged ← d.exchange col found
      let normalized ← exchanged.normalize col col
      let cleared ←
        normalized.clear col col 1 ((List.range normalized.matrix.rows).filter (· ≠ col))
      reduceSquare cleared rest

end Draft

/-! ## Algorithms -/

namespace Numbered

/-- The row echelon form. -/
def echelon (a : Mat) (journal : Option Journal) : Except Error (Mat × Option Journal) := do
  let (last, _) ← (Draft.start "Initial matrix" a journal).forward 0 (List.range a.cols)
  return (last.matrix, (last.close "Row echelon form").journal)

/-- The reduced row echelon form. -/
def reducedEchelon (a : Mat) (journal : Option Journal) : Except Error (Mat × Option Journal) := do
  let last ← (Draft.start "Initial matrix" a journal).reduce (List.range a.cols)
  return (last.matrix, (last.close "Reduced row echelon form").journal)

/-- Counts a row, unless it is zero. -/
def countRow (a : Mat) (count i : Nat) : Except Error Nat := do
  return if ← a.isZeroRow i then count else count + 1

/-- The rank: the number of rows of the reduced row echelon form that are not zero. -/
def rank (a : Mat) (journal : Option Journal) : Except Error (Nat × Option Journal) := do
  let (reduced, journal) ← reducedEchelon a journal
  let count ← (List.range reduced.rows).foldlM (countRow reduced) 0
  return (count, journal)

/-- The determinant. -/
def det (a : Mat) (journal : Option Journal) : Except Error (Rat × Option Journal) := do
  a.checkSquare "The determinant"
  let (value, last) ← (Draft.start "Initial matrix" a journal).determinant
  return (value, last.journal)

/-- The inverse by elimination. -/
def inverseByElimination (a : Mat) (journal : Option Journal) :
    Except Error (Mat × Option Journal) := do
  a.checkSquare "The inverse"
  let augmented ← a.augment ⟨a.rows, a.rows, Grid.identity a.rows⟩
  let last ←
    (Draft.start "Augmented matrix [A | I]" augmented journal).reduceSquare (List.range a.rows)
  let result ← last.matrix.rightPart a.rows
  return (result, noted last.journal (.result "The right block is the inverse" result))

/-- The reduced echelon form of one matrix, with the same operations applied to a second one. -/
def union (a b : Mat) (journal : Option Journal) : Except Error ((Mat × Mat) × Option Journal) := do
  let augmented ← a.augment b
  let last ← (Draft.start "Augmented matrix [A | B]" augmented journal).reduce (List.range a.cols)
  let left ← last.matrix.leftPart a.cols
  let right ← last.matrix.rightPart a.cols
  return ((left, right), (last.close "RREF of A with B carried along").journal)

end Numbered

end ExactAlgebra
