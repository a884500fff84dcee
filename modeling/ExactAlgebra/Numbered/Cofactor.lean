import ExactAlgebra.Cofactor.Adjugate
import ExactAlgebra.Matrix.Edit
import ExactAlgebra.Numbered.Elimination

/-!
# Cofactors by row and column numbers

Expansions, cofactors and the adjugate, as loops over the numbers of rows and columns; whatever is
asked for by a number that is out of range is refused. A matrix that is computed entry by entry
begins with zeros, and its entries are set one after another.

## Main definitions

* `Numbered.writeEntry`, `Numbered.build` — matrices that are computed entry by entry;
* `Numbered.expand`, `Numbered.sparsestLine`, `Numbered.expansion` — determinants by expansion;
* `Numbered.cofactor`, `Numbered.cofactors`, `Numbered.adjugate`, `Numbered.inverse` — the inverse
  by the adjugate;
* `Numbered.transpose` — rows become columns.
-/

namespace ExactAlgebra.Numbered

open ExactAlgebra.Text

/-! ## Entry by entry -/

/-- Sets an entry to a value that is computed first. -/
def writeEntry (a : Mat) (i j : Nat) (value : Except Error Rat) : Except Error Mat := do
  let q ← value
  a.set i j (.number q)

/-- The places of a rectangle, row by row. -/
def places (rows cols : Nat) : List (Nat × Nat) :=
  (List.range rows).flatMap fun i => (List.range cols).map fun j => (i, j)

/-- **A matrix that is computed entry by entry.** -/
def build (rows cols : Nat) (order : List (Nat × Nat)) (value : Nat → Nat → Except Error Rat) :
    Except Error Mat :=
  order.foldlM (fun a place => writeEntry a place.1 place.2 (value place.1 place.2))
    (Mat.zero rows cols)

/-- Rows become columns; they are read in their order. -/
def transpose (a : Mat) : Except Error Mat :=
  build a.cols a.rows ((places a.rows a.cols).map Prod.swap) fun i j => a.get j i

/-! ## Expansions -/

/-- **The determinant by expansion along first rows**, of a matrix with the given number of rows. -/
def expand : Nat → Mat → Except Error Rat
  | 0, _ => .ok 1
  | 1, a => a.get 0 0
  | 2, a => do
    return (← a.get 0 0) * (← a.get 1 1) - (← a.get 0 1) * (← a.get 1 0)
  | n + 3, a =>
    (List.range (n + 3)).foldlM
      (fun total (j : Nat) => do
        let entry ← a.get 0 j
        if entry = 0 then return total
        else
          let minor ← a.minor 0 j
          return total + checkerSign 0 j * entry * (← expand (n + 2) minor))
      0

/-- The lines of a matrix with their zeros: the rows first, then the columns. -/
def lineZeros (a : Mat) : Except Error (List (Line × Nat)) := do
  let rows ← (List.range a.rows).mapM fun (i : Nat) => do
    return (Line.row i, zeroCount (← a.row i))
  let columns ← (List.range a.cols).mapM fun (j : Nat) => do
    return (Line.column j, zeroCount (← a.column j))
  return rows ++ columns

/-- **The line with the most zeros.** -/
def sparsestLine (a : Mat) : Except Error Line := do
  match ← lineZeros a with
  | [] => return .row 0
  | first :: rest => return firstSparsest first rest

/-- The line that a strategy chooses. -/
def chosenLine (strategy : Strategy) (a : Mat) : Except Error Line :=
  match strategy with
  | .firstRow => .ok (.row 0)
  | .sparsest => sparsestLine a

/-- The place of the entry with a number in a line. -/
def placeIn (line : Line) (k : Nat) : Nat × Nat :=
  if line.isRow then (line.index, k) else (k, line.index)

/-- **A step of an expansion**: the sum so far with one more term, and its journal. -/
def expansionStep (a : Mat) (line : Line) (sofar : Rat × Option Journal) (k : Nat) :
    Except Error (Rat × Option Journal) := do
  let (total, journal) := sofar
  let (i, j) := placeIn line k
  let name := placeText i j
  let entry ← a.get i j
  if entry = 0 then
    return (total,
      noted journal
        ⟨.minor, "a" ++ name ++ " = 0, so its term is 0", a, .term line.index k entry none 0 total⟩)
  else
    let minor ← a.minor i j
    let cofactor := checkerSign i j * (← expand minor.rows minor)
    let term := entry * cofactor
    return (total + term,
      noted journal
        ⟨.minor,
         "a" ++ name ++ "·C" ++ name ++ " = " ++ Rational.text entry ++ "·"
           ++ Rational.text cofactor ++ " = " ++ Rational.text term,
         minor, .term line.index k entry (some cofactor) term (total + term)⟩)

/-- **The determinant by expansion along a chosen line.** Up to two rows there is nothing to
choose. -/
def expansion (strategy : String) (a : Mat) (journal : Option Journal) :
    Except Error (Rat × Option Journal) := do
  a.checkSquare "The determinant"
  let strategy ← Strategy.ofName strategy
  let size := natText a.rows
  let journal :=
    noted journal (.start ("Expand the determinant of this " ++ size ++ "x" ++ size ++ " matrix") a)
  if a.rows ≤ 2 then
    let value ← expand a.rows a
    return (value, noted journal (determinantStep value a))
  else
    let line ← chosenLine strategy a
    let (total, journal) ←
      (List.range a.rows).foldlM (expansionStep a line) (0, noted journal (line.step a))
    return (total, noted journal (determinantStep total a))

/-! ## Cofactors -/

/-- The cofactor at a place. -/
def cofactor (a : Mat) (i j : Nat) : Except Error Rat := do
  a.checkSquare "A cofactor"
  let minor ← a.minor i j
  let (value, _) ← det minor none
  return checkerSign i j * value

/-- The matrix of cofactors. -/
def cofactors (a : Mat) (journal : Option Journal) : Except Error (Mat × Option Journal) := do
  a.checkSquare "The cofactor matrix"
  let result ← build a.rows a.rows (places a.rows a.rows) (cofactor a)
  return (result,
    noted (noted journal (.start "Initial matrix" a))
      (.result "Cofactor matrix: C[i,j] = (-1)^(i+j)·M[i,j]" result))

/-- The adjugate. -/
def adjugate (a : Mat) (journal : Option Journal) : Except Error (Mat × Option Journal) := do
  let (matrix, journal) ← cofactors a journal
  let result ← transpose matrix
  return (result, noted journal (.result "Adjugate: transpose of the cofactor matrix" result))

/-- **The inverse by the adjugate.** -/
def inverse (a : Mat) (journal : Option Journal) : Except Error (Mat × Option Journal) := do
  a.checkSquare "The inverse"
  let (value, _) ← det a none
  if value = 0 then throw .zeroDeterminant
  else
    let begun := noted journal (.start ("det(A) = " ++ Rational.text value) a)
    let (matrix, journal) ← adjugate a begun
    let result := matrix.scale (1 / value)
    return (result, noted journal (.result ("A^-1 = adj(A) / " ++ Rational.text value) result))

end ExactAlgebra.Numbered
