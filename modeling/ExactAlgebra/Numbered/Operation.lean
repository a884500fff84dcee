import ExactAlgebra.Matrix.Operation
import ExactAlgebra.Numbered.Cofactor

/-!
# Operations by row and column numbers

The operations that can be asked for by name, each carried out by its loops. An operation without a
journal leaves the one that it is given as it is.

## Main definitions

* `Numbered.perform` — the result of an operation, with its journal if one is kept.
-/

namespace ExactAlgebra.Numbered

/-- A result of some kind with its journal, as the result of an operation. -/
def asOutcome {α : Type} (kind : α → Outcome) (run : Except Error (α × Option Journal)) :
    Except Error (Outcome × Option Journal) :=
  run.map fun (value, journal) => (kind value, journal)

/-- **Carries out an operation.** Only the expansion looks at the name of a strategy. -/
def perform (op : Operation) (strategy : String) (a : Mat) (journal : Option Journal) :
    Except Error (Outcome × Option Journal) :=
  match op with
  | .echelon => asOutcome .matrix (echelon a journal)
  | .reducedEchelon => asOutcome .matrix (reducedEchelon a journal)
  | .rank => asOutcome .count (rank a journal)
  | .determinant => asOutcome .number (det a journal)
  | .expansion => asOutcome .number (expansion strategy a journal)
  | .inverse => asOutcome .matrix (inverse a journal)
  | .inverseByElimination => asOutcome .matrix (inverseByElimination a journal)
  | .cofactors => asOutcome .matrix (cofactors a journal)
  | .adjugate => asOutcome .matrix (adjugate a journal)
  | .transpose => (transpose a).map fun b => (.matrix b, journal)

end ExactAlgebra.Numbered
