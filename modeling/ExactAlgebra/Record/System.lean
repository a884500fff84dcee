import ExactAlgebra.Rational.Integer
import ExactAlgebra.Record.Matrix
import ExactAlgebra.System.Basic

/-!
# Solutions of systems as records

A solution is a record of twelve fields: a mark, the type of solution, what the ranks say, the
descriptions, and three matrices, each of them a record itself.

## Main definitions

* `SystemSolution.encode` — the record of a solution;
* `SystemSolution.decode` — the solution of a record.
-/

namespace ExactAlgebra

open ExactAlgebra.Text

/-- The type of solution with a given name. -/
def SolutionType.ofName (name : String) : Except Error SolutionType :=
  match ofName? name with
  | .some type => .ok type
  | .none => .error (.unknownSolutionType (quoted name))

namespace SystemSolution

/-- The mark in the first field. -/
def mark : String :=
  "EQUATION_SOLUTION"

/-- **The record of a solution.** -/
def encode (s : SystemSolution) : String :=
  Record.joinFields
    [mark, s.solutionType.name, intText s.info.coefficientRank, intText s.info.augmentedRank,
     intText s.info.unknowns, intText s.info.equations, s.info.solutionType.name,
     s.info.description, s.description, s.particular.encode, s.homogeneous.encode,
     s.augmented.encode]

/-- The ranks, the numbers and the two types of solution in a record. -/
def decodeInfo (type rank augmentedRank unknowns equations infoType description : String) :
    Except Error (SolutionType × SystemInfo) := do
  let rank ← readInt rank
  let augmentedRank ← readInt augmentedRank
  let unknowns ← readInt unknowns
  let equations ← readInt equations
  let infoType ← SolutionType.ofName infoType
  let type ← SolutionType.ofName type
  return (type, ⟨rank, augmentedRank, unknowns, equations, infoType, description⟩)

/-- **The solution of a record.** -/
def decode (record : String) : Except Error SystemSolution := do
  match ← Record.splitFields record with
  | [first, type, rank, augmentedRank, unknowns, equations, infoType, infoText, text, particular,
      homogeneous, augmented] =>
    if first ≠ mark then throw .notSolution
    match decodeInfo type rank augmentedRank unknowns equations infoType infoText with
    | .error e => throw (.corruptSolution e.message)
    | .ok (solutionType, info) =>
      return {
        solutionType := solutionType
        particular := ← Mat.decode particular
        homogeneous := ← Mat.decode homogeneous
        info := info
        description := text
        augmented := ← Mat.decode augmented }
  | _ => throw .notSolution

end SystemSolution

end ExactAlgebra
