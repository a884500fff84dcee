import ExactAlgebra.System.Basic

/-!
# Sets of vectors

The columns of a matrix are a set of vectors. One set represents another if every vector of the
second is a combination of those of the first; two sets are equivalent if each represents the other,
which ranks decide.

## Main definitions

* `Representation`, `represent` — the weights that express one set through another;
* `representVector` — those for a single vector;
* `areEquivalent` — whether two sets span the same space;
* `Comparison`, `compareSpans` — all of it for two sets.
-/

namespace ExactAlgebra

/-- **Whether a set of vectors is represented**, whether the weights are the only ones, and the
weights, one column for each vector. -/
structure Representation where
  representable : Bool
  unique : Bool
  coefficients : Option Mat
  deriving DecidableEq

/-- Refuses vectors of different sizes. -/
def checkVectorSize (a b : Mat) : Except Error Unit :=
  if a.rows = b.rows then .ok () else .error (.setSizes a.rows b.rows)

/-- The solutions for several right-hand sides, up to the first one that has none. -/
def solveColumns (a : Mat) : List (List Rat) → Except Error (Option (List SystemSolution))
  | [] => .ok (some [])
  | column :: rest => do
    let (solution, _) ← solveSystem a (Vec.toColumn ⟨column⟩)
    if solution.isSolvable then
      return (← solveColumns a rest).map (solution :: ·)
    else return none

/-- **The weights that express the columns of `b` through those of `a`.** Where they can be chosen,
those that are free are zero. -/
def represent (a b : Mat) : Except Error Representation := do
  checkVectorSize a b
  match ← solveColumns a b.columns with
  | none => return ⟨false, false, none⟩
  | some solutions =>
    let weights := solutions.map fun s => s.particular.toLists.flatten
    return ⟨true, solutions.all (·.isUnique), some ⟨a.cols, b.cols, Grid.ofEntries fun i j =>
      (weights.getD j.val []).getD i.val 0⟩⟩

/-- **The weights that express a vector** other than zero; `none` if there are none. -/
def representVector (a : Mat) (v : Vec) : Except Error (Option Vec) := do
  if v.isZero then throw .zeroTarget
  let r ← represent a v.toColumn
  match r.coefficients with
  | some weights => return some ⟨← weights.column 0⟩
  | none => return none

/-- **Whether two sets of vectors span the same space.** -/
def areEquivalent (a b : Mat) : Except Error Bool := do
  checkVectorSize a b
  let joint ← a.augment b
  return a.rank = joint.rank && b.rank = joint.rank

/-- **Two sets of vectors compared**, with the reduced form of the first and the second one carried
along. -/
structure Comparison where
  firstRepresentsSecond : Representation
  secondRepresentsFirst : Representation
  equivalent : Bool
  union : Mat × Mat

/-- Compares two sets of vectors. -/
def compareSpans (a b : Mat) : Except Error Comparison := do
  let first ← represent a b
  let second ← represent b a
  let equivalent ← areEquivalent a b
  let (reduced, carried, _) ← unionEchelon a b
  return ⟨first, second, equivalent, (reduced, carried)⟩

end ExactAlgebra
