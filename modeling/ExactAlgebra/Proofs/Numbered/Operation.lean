import ExactAlgebra.Numbered.Operation
import ExactAlgebra.Proofs.Numbered.Cofactor

/-!
# Every operation asks for what is there

Carrying out an operation by its loops ends as the operation does: with its result and its journal,
or with the reason for which it is refused.

## Main statements

* `Numbered.perform_eq` — any operation, any strategy, any matrix.
-/

namespace ExactAlgebra.Numbered

theorem asOutcome_recorded {α : Type} (kind : α → Outcome) (before : Option Journal)
    (result : Except Error α) (steps : Except Error Journal) :
    asOutcome kind (recorded before result steps) = recorded before (result.map kind) steps := by
  cases result with
  | error e => rfl
  | ok value => cases steps <;> rfl

/-- **Carrying out an operation** gives its result with its journal. -/
theorem perform_eq (op : Operation) (strategy : String) (a : Mat) (before : Option Journal) :
    perform op strategy a before =
      recorded before (op.result strategy a) (op.journal strategy a) := by
  cases op with
  | echelon => rw [perform, echelon_eq strategy]; rfl
  | reducedEchelon => rw [perform, reducedEchelon_eq]; rfl
  | rank => rw [perform, rank_eq]; rfl
  | transpose =>
    rw [perform, transpose_ok]
    cases before <;> simp [recorded, Operation.result, Operation.journal, Except.map, bind_ok,
      pure_eq_ok, Mat.transpose]
  | determinant =>
    rcases square_cases "The determinant" a with ⟨n, g, rfl⟩ | ⟨refused, same⟩
    · rw [perform, det_eq, Operation.result, Operation.journal, Mat.det, Mat.squareGrid_square]
      rfl
    · rw [perform, det, refused, Operation.result, Mat.det, same]
      rfl
  | expansion =>
    rcases square_cases "The determinant" a with ⟨n, g, rfl⟩ | ⟨refused, same⟩
    · rw [perform, expansion_eq, asOutcome_recorded]
      rfl
    · rw [perform, expansion, refused, Operation.result, Mat.expand, same]
      rfl
  | inverse =>
    rcases square_cases "The inverse" a with ⟨n, g, rfl⟩ | ⟨refused, same⟩
    · rw [perform, inverse_eq g strategy, asOutcome_recorded]
      rfl
    · rw [perform, inverse, refused, Operation.result, Mat.inverse, same]
      rfl
  | inverseByElimination =>
    rcases square_cases "The inverse" a with ⟨n, g, rfl⟩ | ⟨refused, same⟩
    · rw [perform, inverseByElimination_eq, asOutcome_recorded, Operation.journal,
        Mat.squareGrid_square]
      rfl
    · rw [perform, inverseByElimination, refused, Operation.result, Mat.inverseByElimination, same]
      rfl
  | cofactors =>
    rcases square_cases "The cofactor matrix" a with ⟨n, g, rfl⟩ | ⟨refused, same⟩
    · rw [perform, cofactors_eq, Operation.result, Operation.journal, Mat.cofactors,
        Mat.squareGrid_square]
      rfl
    · rw [perform, cofactors, refused, Operation.result, Mat.cofactors, same]
      rfl
  | adjugate =>
    rcases square_cases "The cofactor matrix" a with ⟨n, g, rfl⟩ | ⟨refused, same⟩
    · rw [perform, adjugate_eq, Operation.result, Operation.journal, Mat.adjugate,
        Mat.squareGrid_square]
      rfl
    · rw [perform, adjugate, cofactors, refused, Operation.result, Mat.adjugate, same]
      rfl

end ExactAlgebra.Numbered
