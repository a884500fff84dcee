import ExactAlgebra.Elimination.Worksheet
import ExactAlgebra.Matrix.Operation

/-!
# Recorded eliminations

The algorithms that work by elimination can be run with a journal or without one. A run answers its
outcome or the reason why there is none, and the journal with what was noted up to there.

## Main definitions

* `Algorithm` — the algorithms that work by elimination;
* `Algorithm.run` — a run, with the journal that is continued by it, if any;
* `Algorithm.start`, `Algorithm.outcomes`, `Algorithm.journal` — the matrix that it begins with, its
  outcome, and its journal.
-/

namespace ExactAlgebra

/-- **The algorithms that work by elimination.** -/
inductive Algorithm where
  | echelon
  | reducedEchelon
  | rank
  | determinant
  | inverse
  /-- The reduced echelon form, with a second matrix carried along. -/
  | union (second : Mat)

namespace Algorithm

/-- **A run in place.** With a journal, the steps of the run are put behind those that are there. -/
def run (algorithm : Algorithm) (a : Mat) (journal : Option Journal) :
    Except Error (List Outcome) × Option Journal :=
  match algorithm with
  | echelon =>
    let begun := Worksheet.begin "Initial matrix" a.grid journal
    let last := (begun.forward 0 (pivotColumns a.rows a.cols)).1
    (.ok [.matrix last.matrix], (last.close "Row echelon form").journal)
  | reducedEchelon =>
    let begun := Worksheet.begin "Initial matrix" a.grid journal
    let last := begun.reduce (pivotColumns a.rows a.cols)
    (.ok [.matrix last.matrix], (last.close "Reduced row echelon form").journal)
  | rank =>
    let begun := Worksheet.begin "Initial matrix" a.grid journal
    let last := begun.reduce (pivotColumns a.rows a.cols)
    (.ok [.count (nonzeroRows last.grid)], (last.close "Reduced row echelon form").journal)
  | determinant =>
    match a.squareGrid "The determinant" with
    | .error e => (.error e, journal)
    | .ok g =>
      let (value, last) := (Worksheet.begin "Initial matrix" g journal).determinant
      (.ok [.number value], last.journal)
  | inverse =>
    match a.squareGrid "The inverse" with
    | .error e => (.error e, journal)
    | .ok g =>
      let begun :=
        Worksheet.begin "Augmented matrix [A | I]" (g.beside (Grid.identity a.rows)) journal
      match begun.reduceSquare (List.finRange a.rows) with
      | (last, some col) => (.error (.noPivot (col.val + 1)), last.journal)
      | (last, none) =>
        (.ok [.matrix last.rightBlock],
          (last.note (.result "The right block is the inverse" last.rightBlock)).journal)
  | union b =>
    if same : b.rows = a.rows then
      let begun :=
        Worksheet.begin "Augmented matrix [A | B]" (a.grid.beside (b.grid.cast same)) journal
      let last := begun.reduce ((pivotColumns a.rows a.cols).map (Fin.castAdd b.cols))
      (.ok [.matrix last.leftBlock, .matrix last.rightBlock],
        (last.close "RREF of A with B carried along").journal)
    else (.error (.augmentRows a.rows b.rows), journal)

/-- The matrix that a run begins with: the given one, or that with a second one at its right. -/
def start (algorithm : Algorithm) (a : Mat) : Except Error Mat :=
  match algorithm with
  | echelon | reducedEchelon | rank => .ok a
  | determinant => (a.squareGrid "The determinant").map fun g => ⟨a.rows, a.rows, g⟩
  | inverse =>
    (a.squareGrid "The inverse").map fun g =>
      ⟨a.rows, a.rows + a.rows, g.beside (Grid.identity a.rows)⟩
  | union b => a.augment b

/-- **The outcome of an algorithm**: one, or the two blocks of a union. -/
def outcomes (algorithm : Algorithm) (a : Mat) : Except Error (List Outcome) :=
  match algorithm with
  | echelon => .ok [.matrix a.echelon]
  | reducedEchelon => .ok [.matrix a.reducedEchelon]
  | rank => .ok [.count a.rank]
  | determinant => a.det.map fun value => [.number value]
  | inverse => a.inverseByElimination.map fun b => [.matrix b]
  | union b => (unionEchelon a b).map fun (left, right, _) => [.matrix left, .matrix right]

/-- **The journal of an algorithm.** -/
def journal (algorithm : Algorithm) (a : Mat) : Except Error Journal :=
  match algorithm with
  | echelon => Operation.echelon.journal Strategy.firstRow.name a
  | reducedEchelon => Operation.reducedEchelon.journal Strategy.firstRow.name a
  | rank => Operation.rank.journal Strategy.firstRow.name a
  | determinant => Operation.determinant.journal Strategy.firstRow.name a
  | inverse => Operation.inverseByElimination.journal Strategy.firstRow.name a
  | union b => (unionEchelon a b).map fun (_, _, journal) => journal

end Algorithm

end ExactAlgebra
