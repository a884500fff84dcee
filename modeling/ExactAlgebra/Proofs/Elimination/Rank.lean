import ExactAlgebra.Matrix.Operation
import ExactAlgebra.Proofs.Elimination.Echelon
import Mathlib.LinearAlgebra.Dimension.Finite
import Mathlib.LinearAlgebra.Dimension.Constructions
import Mathlib.LinearAlgebra.Matrix.Rank

/-!
# What the rank counts

The rank is read off the reduced echelon form, as the number of its rows that are not zero. It is the
rank of the matrix, and that is the dimension of the span of the columns, and of the span of the rows.

The dimension of a span is a maximum: out of the vectors that span, so many can be chosen that are
linearly independent, and no more. A vector that stands twice is chosen at most once, as a family with
a repetition is dependent.

## Main statements

* `isGreatest_card_independent` — the dimension of a span, as the size of the largest choice;
* `Grid.isGreatest_independent_columns`, `Grid.isGreatest_independent_rows` — the rank of a grid;
* `Mat.rank_transpose`, `Mat.rank_mul_left`, `Mat.rank_mul_right` — what leaves the rank as it is;
* `Mat.rank_counts_independent` — the same of the rank of a matrix.
-/

namespace ExactAlgebra

open Matrix Module Submodule

variable {m n : Nat}

/-! ## The dimension of a span -/

section Span

variable {K V ι : Type*} [Field K] [AddCommGroup V] [Module K V] [Finite ι]

/-- An independent choice is no larger than the dimension. -/
theorem card_le_finrank_span (v : ι → V) (chosen : Finset ι)
    (independent : LinearIndepOn K v (chosen : Set ι)) :
    chosen.card ≤ finrank K (span K (Set.range v)) := by
  have finite : FiniteDimensional K (span K (Set.range v)) :=
    FiniteDimensional.span_of_finite K (Set.finite_range v)
  have inside : span K (Set.range fun i : (chosen : Set ι) => v i) ≤ span K (Set.range v) := by
    apply span_mono
    rintro _ ⟨i, rfl⟩
    exact ⟨i, rfl⟩
  calc chosen.card = Fintype.card (chosen : Set ι) := (Fintype.card_coe chosen).symm
    _ = finrank K (span K (Set.range fun i : (chosen : Set ι) => v i)) :=
      (finrank_span_eq_card independent).symm
    _ ≤ finrank K (span K (Set.range v)) := finrank_mono inside

/-- **The dimension of a span** is the size of the largest independent choice of the vectors. -/
theorem isGreatest_card_independent (v : ι → V) :
    IsGreatest {k | ∃ chosen : Finset ι, chosen.card = k ∧ LinearIndepOn K v (chosen : Set ι)}
      (finrank K (span K (Set.range v))) := by
  constructor
  · -- an independent choice that cannot be extended spans everything
    obtain ⟨basis, -, -, spans, independent⟩ :=
      exists_linearIndepOn_extension (linearIndepOn_empty K v) (Set.empty_subset Set.univ)
    have all : span K (Set.range v) = span K (Set.range fun i : basis => v i) := by
      rw [← Set.image_univ, ← Set.image_eq_range]
      exact le_antisymm (span_le.mpr spans) (span_mono (Set.image_mono (Set.subset_univ basis)))
    have finite := Set.toFinite basis
    have := finite.fintype
    refine ⟨finite.toFinset, ?_, by rwa [finite.coe_toFinset]⟩
    rw [all, finrank_span_eq_card independent, finite.card_toFinset]
  · rintro _ ⟨chosen, rfl, independent⟩
    exact card_le_finrank_span v chosen independent

end Span

/-! ## The rank of a grid -/

namespace Grid

/-- **The rank counts independent columns.** -/
theorem isGreatest_independent_columns (g : Grid m n) :
    IsGreatest {k | ∃ columns : Finset (Fin n), columns.card = k ∧
      LinearIndepOn ℚ g.toMatrix.col (columns : Set (Fin n))} g.rank := by
  rw [rank_eq, rank_eq_finrank_span_cols]
  exact isGreatest_card_independent g.toMatrix.col

/-- **The rank counts independent rows.** -/
theorem isGreatest_independent_rows (g : Grid m n) :
    IsGreatest {k | ∃ rows : Finset (Fin m), rows.card = k ∧
      LinearIndepOn ℚ g.toMatrix.row (rows : Set (Fin m))} g.rank := by
  rw [rank_eq, rank_eq_finrank_span_row]
  exact isGreatest_card_independent g.toMatrix.row

end Grid

/-! ## The rank of a matrix -/

namespace Mat

/-- The rank of the transpose. -/
theorem rank_transpose (g : Grid m n) : (transpose ⟨m, n, g⟩).rank = rank ⟨m, n, g⟩ := by
  change g.transpose.rank = g.rank
  rw [Grid.rank_eq, Grid.rank_eq, Grid.toMatrix_transpose, Matrix.rank_transpose]

/-- An invertible factor on the left leaves the rank as it is. -/
theorem rank_mul_left (g : Grid m n) (p : Grid m m) (invertible : IsUnit p.toMatrix) :
    ∃ b, mul ⟨m, m, p⟩ ⟨m, n, g⟩ = .ok b ∧ b.rank = rank ⟨m, n, g⟩ := by
  refine ⟨_, mul_grids p g, ?_⟩
  change (p.mul g).rank = g.rank
  rw [Grid.rank_eq, Grid.rank_eq, Grid.toMatrix_mul]
  exact rank_mul_eq_right_of_isUnit_det _ _ ((isUnit_iff_isUnit_det _).mp invertible)

/-- An invertible factor on the right leaves the rank as it is. -/
theorem rank_mul_right (g : Grid m n) (q : Grid n n) (invertible : IsUnit q.toMatrix) :
    ∃ b, mul ⟨m, n, g⟩ ⟨n, n, q⟩ = .ok b ∧ b.rank = rank ⟨m, n, g⟩ := by
  refine ⟨_, mul_grids g q, ?_⟩
  change (g.mul q).rank = g.rank
  rw [Grid.rank_eq, Grid.rank_eq, Grid.toMatrix_mul]
  exact rank_mul_eq_left_of_isUnit_det _ _ ((isUnit_iff_isUnit_det _).mp invertible)

/-- **What the rank counts**: the largest number of linearly independent columns, and of linearly
independent rows. So it is the rank of the transpose, and an invertible factor on either side leaves
it as it is. -/
theorem rank_counts_independent (g : Grid m n) :
    IsGreatest {k | ∃ columns : Finset (Fin n), columns.card = k ∧
        LinearIndepOn ℚ g.toMatrix.col (columns : Set (Fin n))} (rank ⟨m, n, g⟩) ∧
      IsGreatest {k | ∃ rows : Finset (Fin m), rows.card = k ∧
        LinearIndepOn ℚ g.toMatrix.row (rows : Set (Fin m))} (rank ⟨m, n, g⟩) ∧
      (transpose ⟨m, n, g⟩).rank = rank ⟨m, n, g⟩ ∧
      (∀ p : Grid m m, IsUnit p.toMatrix →
        ∃ b, mul ⟨m, m, p⟩ ⟨m, n, g⟩ = .ok b ∧ b.rank = rank ⟨m, n, g⟩) ∧
      (∀ q : Grid n n, IsUnit q.toMatrix →
        ∃ b, mul ⟨m, n, g⟩ ⟨n, n, q⟩ = .ok b ∧ b.rank = rank ⟨m, n, g⟩) :=
  ⟨g.isGreatest_independent_columns, g.isGreatest_independent_rows, rank_transpose g,
    rank_mul_left g, rank_mul_right g⟩

end Mat

end ExactAlgebra
