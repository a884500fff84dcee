import ExactAlgebra.Matrix.Operation
import ExactAlgebra.Vector.Basic

/-!
# Systems of linear equations

A system `A x = b` has no solution, one, or infinitely many, and the ranks of `A` and `[A | b]` and
the number of unknowns decide which. All solutions are given by a particular one, in which the free
unknowns are zero, and by a basis of the solutions of `A x = 0`, one vector for each free unknown.

## Main definitions

* `SolutionType`, `SystemInfo`, `SystemSolution` — what is found out about a system;
* `analyzeSystem`, `analyzeHomogeneous` — the classification;
* `solveSystem`, `solveHomogeneous` — the solution, with its journal.
-/

namespace ExactAlgebra

open ExactAlgebra.Text

/-! ## Answers -/

/-- **How many solutions there are.** -/
inductive SolutionType where
  | unique
  | infinite
  | none
  /-- Not yet found out. -/
  | undetermined
  deriving DecidableEq

namespace SolutionType

/-- The name of a type of solution. -/
def name : SolutionType → String
  | unique => "unique"
  | infinite => "infinite"
  | none => "none"
  | undetermined => "undetermined"

/-- The type with a given name. -/
def ofName? (name : String) : Option SolutionType :=
  [unique, infinite, none, undetermined].find? (·.name = name)

end SolutionType

/-- **What the ranks say about a system.** -/
structure SystemInfo where
  coefficientRank : Int
  augmentedRank : Int
  unknowns : Int
  equations : Int
  solutionType : SolutionType
  description : String
  deriving DecidableEq

/-- The number of unknowns that can be chosen freely. -/
def SystemInfo.freeUnknowns (info : SystemInfo) : Int :=
  info.unknowns - info.coefficientRank

/-- **The solution of a system.** The particular solution and the basis are columns; they are empty
if there are none. -/
structure SystemSolution where
  solutionType : SolutionType
  particular : Mat
  homogeneous : Mat
  info : SystemInfo
  description : String
  augmented : Mat
  deriving DecidableEq

namespace SystemSolution

/-- Whether there is a solution. -/
def isSolvable (s : SystemSolution) : Bool :=
  s.solutionType = .unique || s.solutionType = .infinite

/-- Whether there is exactly one solution. -/
def isUnique (s : SystemSolution) : Bool :=
  s.solutionType = .unique

/-- Whether there are infinitely many solutions. -/
def isInfinite (s : SystemSolution) : Bool :=
  s.solutionType = .infinite

end SystemSolution

/-! ## Classification -/

/-- Refuses a right-hand side that is no column of as many rows as the system has equations. -/
def checkRightSide (a b : Mat) : Except Error Unit :=
  if b.cols ≠ 1 then .error (.notColumn b.rows b.cols)
  else if b.rows ≠ a.rows then .error (.systemRows a.rows b.rows)
  else .ok ()

/-- **The classification by ranks**, with its description. -/
def classify (rank augmentedRank unknowns : Nat) : SolutionType × String :=
  if rank < augmentedRank then (.none, "No solution: rank(A) < rank([A|b]).")
  else if rank = unknowns then
    (.unique, "Unique solution: rank(A) = rank([A|b]) = number of unknowns.")
  else if rank < unknowns then
    (.infinite, "Infinitely many solutions: rank(A) = rank([A|b]) < number of unknowns.")
  else (.undetermined, "Undetermined.")

/-- What the ranks say about `A x = b`. -/
def systemInfo (a augmented : Mat) : SystemInfo :=
  let (solutionType, description) := classify a.rank augmented.rank a.cols
  { coefficientRank := a.rank
    augmentedRank := augmented.rank
    unknowns := a.cols
    equations := a.rows
    solutionType := solutionType
    description := description }

/-- **Classifies the system `A x = b`.** -/
def analyzeSystem (a b : Mat) : Except Error SystemInfo := do
  checkRightSide a b
  return systemInfo a (← a.augment b)

/-- **Classifies the system `A x = 0`**, which always has a solution. -/
def analyzeHomogeneous (a : Mat) : SystemInfo where
  coefficientRank := a.rank
  augmentedRank := a.rank
  unknowns := a.cols
  equations := a.rows
  solutionType := if a.rank = a.cols then .unique else .infinite
  description :=
    if a.rank = a.cols then "Only the zero solution."
    else "Non-zero solutions exist (infinitely many)."

/-! ## Solutions -/

/-- The row whose pivot is in a column, if there is one; the pivot of a row is in the column at its
place in the list. -/
def pivotRow? {n : Nat} (pivots : List (Fin n)) (col : Fin n) : Option Nat :=
  pivots.findIdx? (· = col)

/-- **The particular solution** of a reduced system: an unknown with a pivot has the value on the
right of its row, any other one is zero. -/
def particularSolution (coefficients right : Mat) : Mat :=
  ⟨coefficients.cols, 1, Grid.ofEntries fun i _ =>
    match pivotRow? coefficients.leadingColumns i with
    | some row => (right.toLists.getD row []).getD 0 0
    | none => 0⟩

/-- The columns without a pivot. -/
def freeColumns (coefficients : Mat) : List (Fin coefficients.cols) :=
  (List.finRange coefficients.cols).filter fun j => j ∉ coefficients.leadingColumns

/-- **The basis of the solutions of a reduced homogeneous system**, one column for each free
unknown: it is one there, zero at the other free unknowns, and whatever solves the equations at
those with a pivot. -/
def homogeneousBasis (coefficients : Mat) : Mat :=
  ⟨coefficients.cols, (freeColumns coefficients).length, Grid.ofEntries fun i k =>
    let free := (freeColumns coefficients)[k]
    if i = free then 1
    else
      match pivotRow? coefficients.leadingColumns i with
      | some row => -((coefficients.toLists.getD row []).getD free.val 0)
      | none => 0⟩

/-! ## Descriptions -/

/-- The values of the unknowns in words. -/
def valuesText (n : Nat) : List Rat → List String
  | [] => []
  | q :: rest =>
    ("x" ++ natText (n + 1) ++ " = " ++ Rational.text q) :: valuesText (n + 1) rest

/-- The sum of the basis vectors with their weights. -/
def weightsText (count : Nat) : String :=
  " + ".intercalate ((List.range count).map fun i : Nat =>
    "k" ++ natText (i + 1) ++ "*v" ++ natText (i + 1))

/-- The lines that give the solutions. -/
def solutionLines (solutionType : SolutionType) (particular homogeneous : Mat) : List String :=
  match solutionType with
  | .unique => ["Solution: " ++ ", ".intercalate (valuesText 0 particular.toLists.flatten)]
  | .infinite =>
    ["General solution: x = x_p + " ++ weightsText homogeneous.cols,
     "where k1..k" ++ natText homogeneous.cols
       ++ " are arbitrary and v1..v" ++ natText homogeneous.cols ++ " are the basis columns."]
  | _ => []

/-- **The description of a solution.** -/
def solutionText (info : SystemInfo) (particular homogeneous : Mat) : String :=
  "\n".intercalate
    (["System analysis:",
      "  equations: " ++ intText info.equations,
      "  unknowns: " ++ intText info.unknowns,
      "  rank(A): " ++ intText info.coefficientRank,
      "  rank([A|b]): " ++ intText info.augmentedRank,
      "",
      info.description] ++ solutionLines info.solutionType particular homogeneous)

/-! ## Solving -/

/-- The columns of a solution: the particular one and the basis. -/
def solutionColumns (solutionType : SolutionType) (coefficients right : Mat) : Mat × Mat :=
  match solutionType with
  | .unique => (particularSolution coefficients right, Mat.zero 0 0)
  | .infinite => (particularSolution coefficients right, homogeneousBasis coefficients)
  | _ => (Mat.zero 0 0, Mat.zero 0 0)

/-- The last steps of the journal of a system. -/
def conclusionSteps (info : SystemInfo) (particular reduced : Mat) : Journal :=
  match info.solutionType with
  | .none => [.result "No solution: rank(A) < rank([A|b])" reduced]
  | .unique => [.result "Unique solution: rank(A) = rank([A|b]) = n" particular]
  | .infinite =>
    [.result
      ("Infinitely many solutions: rank(A) = rank([A|b]) < n\nFree variables: "
        ++ intText info.freeUnknowns)
      reduced]
  | .undetermined => []

/-- **Solves the system `A x = b`**, with the journal of the solution. -/
def solveSystem (a b : Mat) : Except Error (SystemSolution × Journal) := do
  checkRightSide a b
  let augmented ← a.augment b
  let info := systemInfo a augmented
  let reduced := augmented.reducedEchelon
  let coefficients ← reduced.leftPart a.cols
  let right ← reduced.rightPart a.cols
  let (particular, homogeneous) := solutionColumns info.solutionType coefficients right
  return (
    { solutionType := info.solutionType
      particular := particular
      homogeneous := homogeneous
      info := info
      description := solutionText info particular homogeneous
      augmented := augmented },
    .start "Solve Ax = b" a :: .result "Augmented matrix [A | b]" augmented
      :: (reducedEchelonJournal augmented ++ conclusionSteps info particular reduced))

/-- **Solves the system `A x = 0`**, with the journal of the solution. -/
def solveHomogeneous (a : Mat) : Except Error (SystemSolution × Journal) :=
  (solveSystem a (Mat.zero a.rows 1)).map fun (solution, journal) =>
    (solution, .start "Solve the homogeneous system Ax = 0" a :: journal)

end ExactAlgebra
