import ExactAlgebra.Numbered.Cofactor
import ExactAlgebra.System.Span

/-!
# Systems by row and column numbers

Systems of equations and sets of vectors, as loops over the numbers of rows and columns; whatever is
asked for by a number that is out of range is refused. Solutions are written into columns of zeros,
one unknown after another.

## Main definitions

* `Numbered.pivotColumns` — the columns of the pivots of a reduced matrix;
* `Numbered.particularSolution`, `Numbered.homogeneousBasis`, `Numbered.solve` — systems;
* `Numbered.represent`, `Numbered.areEquivalent`, `Numbered.compare` — sets of vectors.
-/

namespace ExactAlgebra.Numbered

open ExactAlgebra.Text

/-! ## Solutions -/

/-- The first column in which a row is not zero. -/
def leadingColumn? (a : Mat) (i : Nat) : Except Error (Option Nat) :=
  (List.range a.cols).findM? fun j => do
    return (← a.get i j) ≠ 0

/-- **The columns of the pivots**, for each row that has one. -/
def pivotColumns (a : Mat) : Except Error (List Nat) := do
  return (← (List.range a.rows).mapM (leadingColumn? a)).reduceOption

/-- **The particular solution** of a reduced system: the unknown of each pivot is set to the value
on the right of its row. -/
def particularSolution (coefficients right : Mat) (pivots : List Nat) : Except Error Mat :=
  pivots.zipIdx.foldlM (fun x pivot => writeEntry x pivot.1 0 (right.get pivot.2 0))
    (Mat.zero coefficients.cols 1)

/-- The column of the basis for a free unknown: that unknown is set to one, and the unknown of each
pivot to whatever solves the equation of its row. -/
def basisColumn (coefficients : Mat) (pivots : List Nat) (basis : Mat) (free : Nat × Nat) :
    Except Error Mat := do
  let marked ← writeEntry basis free.1 free.2 (.ok 1)
  pivots.zipIdx.foldlM
    (fun basis pivot =>
      writeEntry basis pivot.1 free.2 ((coefficients.get pivot.2 free.1).map fun q => -q))
    marked

/-- **The basis of the solutions of a reduced homogeneous system**, one column for each free
unknown. -/
def homogeneousBasis (coefficients : Mat) (pivots : List Nat) : Except Error Mat :=
  let free := (List.range coefficients.cols).filter (· ∉ pivots)
  free.zipIdx.foldlM (basisColumn coefficients pivots) (Mat.zero coefficients.cols free.length)

/-- The columns of a solution: the particular one and the basis. -/
def solutionColumns (solutionType : SolutionType) (coefficients right : Mat) (pivots : List Nat) :
    Except Error (Mat × Mat) :=
  match solutionType with
  | .unique => do
    return (← particularSolution coefficients right pivots, Mat.zero 0 0)
  | .infinite => do
    let particular ← particularSolution coefficients right pivots
    return (particular, ← homogeneousBasis coefficients pivots)
  | _ => .ok (Mat.zero 0 0, Mat.zero 0 0)

/-- What the ranks say about a system. -/
def systemInfo (a : Mat) (rank augmentedRank : Nat) : SystemInfo :=
  let (solutionType, description) := classify rank augmentedRank a.cols
  { coefficientRank := rank
    augmentedRank := augmentedRank
    unknowns := a.cols
    equations := a.rows
    solutionType := solutionType
    description := description }

/-- The description of a solution. The values of a unique one are asked for one by one. -/
def description (info : SystemInfo) (particular homogeneous : Mat) : Except Error String := do
  let values ←
    if info.solutionType = .unique then
      (List.range particular.rows).mapM fun (i : Nat) => particular.get i 0
    else pure []
  return solutionText info (Vec.toColumn ⟨values⟩) homogeneous

/-- **Solves the system `A x = b`.** -/
def solve (a b : Mat) : Except Error SystemSolution := do
  checkRightSide a b
  let (coefficientRank, _) ← rank a none
  let augmented ← a.augment b
  let (augmentedRank, _) ← rank augmented none
  let info := systemInfo a coefficientRank augmentedRank
  let (reduced, _) ← reducedEchelon augmented none
  let coefficients ← reduced.leftPart a.cols
  let right ← reduced.rightPart a.cols
  let pivots ← pivotColumns coefficients
  let (particular, homogeneous) ← solutionColumns info.solutionType coefficients right pivots
  let description ← description info particular homogeneous
  return {
    solutionType := info.solutionType
    particular := particular
    homogeneous := homogeneous
    info := info
    description := description
    augmented := augmented }

/-! ## Sets of vectors -/

/-- Writes a solution into a column of the weights. -/
def writeWeights (particular : Mat) (j : Nat) (weights : Mat) : Except Error Mat :=
  (List.range weights.rows).foldlM
    (fun weights (i : Nat) => writeEntry weights i j (particular.get i 0)) weights

/-- The weights for the given columns of `b`, up to the first one that has none. -/
def representFrom (a b weights : Mat) (unique : Bool) : List Nat → Except Error Representation
  | [] => .ok ⟨true, unique, some weights⟩
  | j :: rest => do
    let column ← b.column j
    let solution ← solve a (Vec.toColumn ⟨column⟩)
    if solution.isSolvable then
      let weights ← writeWeights solution.particular j weights
      representFrom a b weights (unique && solution.isUnique) rest
    else return ⟨false, false, none⟩

/-- **The weights that express the columns of `b` through those of `a`.** -/
def represent (a b : Mat) : Except Error Representation := do
  checkVectorSize a b
  representFrom a b (Mat.zero a.cols b.cols) true (List.range b.cols)

/-- **Whether two sets of vectors span the same space.** -/
def areEquivalent (a b : Mat) : Except Error Bool := do
  checkVectorSize a b
  let joint ← a.augment b
  let (both, _) ← rank joint none
  let (first, _) ← rank a none
  let (second, _) ← rank b none
  return first = both && second = both

/-- Compares two sets of vectors. -/
def compare (a b : Mat) : Except Error Comparison := do
  let first ← represent a b
  let second ← represent b a
  let equivalent ← areEquivalent a b
  let (reduced, _) ← union a b none
  return ⟨first, second, equivalent, reduced⟩

end ExactAlgebra.Numbered
