import ExactAlgebra.Proofs.Elimination.RowSpace
import ExactAlgebra.Proofs.Error.Run
import Mathlib.LinearAlgebra.Matrix.Rank

/-!
# Edits of rows

Row operations can be asked for one after another, with any row numbers and any factors. An edit that
is accepted multiplies by an elementary matrix, and that matrix is invertible unless a row is added to
itself with the factor `-1`, which leaves a row of zeros. A run without such an edit therefore keeps
the row space, by induction on its length, and with it the rank and the solutions of `M x = 0`.

## Main statements

* `RowOperation.rowSpace_apply` — a reversible operation keeps the row space;
* `RowEdit.exists_operation` — what an accepted edit does;
* `Grid.rank_eq_of_rowSpace_eq`, `Grid.mul_eq_zero_iff` — what the row space determines;
* `RowEdit.rowSpace_perform`, `RowEdit.performAll_keeps` — one edit, and a run of edits;
* `RowEdit.not_keeps_cancelled` — a row that is added to itself.

## Main definitions

* `RowEdit`, `RowEdit.perform`, `RowEdit.performAll` — edits and runs of edits;
* `RowEdit.Cancels` — a row is added to itself with the factor `-1`.
-/

namespace ExactAlgebra

open Matrix

variable {m n : Nat}

/-! ## One operation -/

theorem RowOperation.isUnit_matrix {op : RowOperation m} (reversible : op.IsReversible) :
    IsUnit op.matrix := by
  rw [Matrix.isUnit_iff_isUnit_det, isUnit_iff_ne_zero, op.det_matrix]
  exact reversible

/-- **A reversible operation keeps the row space.** -/
theorem RowOperation.rowSpace_apply {op : RowOperation m} (reversible : op.IsReversible)
    (g : Grid m n) : (op.apply g).rowSpace = g.rowSpace :=
  rowSpace_eq_of_transform (isUnit_matrix reversible) (op.toMatrix_apply g)

/-! ## Rank and solutions -/

namespace Grid

theorem rank_eq_of_rowSpace_eq {g h : Grid m n} (same : g.rowSpace = h.rowSpace) :
    g.rank = h.rank := by
  rw [rank_eq, rank_eq, rank_eq_finrank_span_row, rank_eq_finrank_span_row]
  show Module.finrank ℚ g.rowSpace = Module.finrank ℚ h.rowSpace
  rw [same]

/-- **The solutions of `g x = 0`** are the vectors that are orthogonal to the row space. -/
theorem mul_eq_zero_iff (g : Grid m n) (x : Grid n 1) :
    g.mul x = zero m 1 ↔ ∀ v ∈ g.rowSpace, v ⬝ᵥ x.toMatrix.col 0 = 0 := by
  have entries : ∀ i, (g.mul x).entry i 0 = g.entry i ⬝ᵥ x.toMatrix.col 0 := fun i => entry_mul g x i 0
  constructor
  · intro solves v mem
    obtain ⟨w, rfl⟩ := mem_rowSpace.mp mem
    have image : g.toMatrix *ᵥ x.toMatrix.col 0 = 0 := by
      funext i
      exact (entries i).symm.trans (by rw [solves, entry_zero, Pi.zero_apply])
    rw [← dotProduct_mulVec, image, dotProduct_zero]
  · intro orthogonal
    refine ext_entries fun i z => ?_
    rw [Subsingleton.elim z 0, entry_zero, entries]
    exact orthogonal _ (g.row_mem_rowSpace i)

end Grid

/-! ## Edits -/

/-- A row that is found has the number that was asked for. -/
theorem Mat.val_of_rowIndex {a : Mat} {i : Int} {row : Fin a.rows} (found : a.rowIndex i = .ok row) :
    i = row.val := by
  unfold Mat.rowIndex at found
  split at found
  · rename_i inside
    cases found
    exact (Int.toNat_of_nonneg inside.1).symm
  · cases found

/-- **An edit of rows** as it is asked for: row numbers and factors may be anything. -/
inductive RowEdit where
  | swap (first second : Int)
  | scale (row : Int) (factor : Cell)
  | add (target source : Int) (factor : Cell)

namespace RowEdit

/-- The operation that an edit asks for. -/
def operation (a : Mat) : RowEdit → Except Error (RowOperation a.rows)
  | swap first second => a.swapRows first second
  | scale row factor => a.scaleRow row factor
  | add target source factor => a.addScaledRow target source factor

/-- **Performs an edit**, if it is accepted. -/
def perform (a : Mat) (edit : RowEdit) : Except Error Mat :=
  (edit.operation a).map a.operate

/-- **Performs edits** one after another. -/
def performAll (a : Mat) (edits : List RowEdit) : Except Error Mat :=
  edits.foldlM perform a

/-- **A row that is cancelled by itself**: it is added to itself with the factor `-1`. -/
def Cancels : RowEdit → Prop
  | swap _ _ | scale _ _ => False
  | add target source factor => target = source ∧ factor.value = .ok (-1)

section Edits

variable {g : Grid m n} {a : Mat}

/-- **An accepted edit** is a reversible operation, unless a row is cancelled by itself. -/
theorem exists_operation {edit : RowEdit} (spared : ¬ edit.Cancels)
    (done : perform ⟨m, n, g⟩ edit = .ok a) :
    ∃ op : RowOperation m, op.IsReversible ∧ a = ⟨m, n, op.apply g⟩ := by
  obtain ⟨op, accepted, rfl⟩ := ok_of_map done
  refine ⟨op, ?_, rfl⟩
  cases edit with
  | swap first second =>
    obtain ⟨i, -, accepted⟩ := ok_of_bind accepted
    obtain ⟨j, -, accepted⟩ := ok_of_bind accepted
    cases accepted
    exact RowOperation.isReversible_swap i j
  | scale row factor =>
    obtain ⟨q, -, accepted⟩ := ok_of_bind accepted
    split at accepted
    · cases accepted
    · rename_i nonzero
      obtain ⟨i, -, accepted⟩ := ok_of_bind accepted
      cases accepted
      exact RowOperation.isReversible_scale nonzero
  | add target source factor =>
    obtain ⟨q, value, accepted⟩ := ok_of_bind accepted
    obtain ⟨s, there, accepted⟩ := ok_of_bind accepted
    obtain ⟨t, here, accepted⟩ := ok_of_bind accepted
    cases accepted
    by_cases apart : t = s
    · subst apart
      -- the rows have the same number, so the factor is not the one that cancels
      have same : target = source := (Mat.val_of_rowIndex here).trans (Mat.val_of_rowIndex there).symm
      have kept : q ≠ -1 := by
        rintro rfl
        exact spared ⟨same, value⟩
      rw [RowOperation.IsReversible, RowOperation.determinant, if_pos rfl]
      exact fun zero => kept (eq_neg_of_add_eq_zero_right zero)
    · exact RowOperation.isReversible_add apart q

/-- An edit keeps the row space. -/
theorem rowSpace_perform {edit : RowEdit} (spared : ¬ edit.Cancels)
    (done : perform ⟨m, n, g⟩ edit = .ok a) :
    ∃ h : Grid m n, a = ⟨m, n, h⟩ ∧ h.rowSpace = g.rowSpace := by
  obtain ⟨op, reversible, rfl⟩ := exists_operation spared done
  exact ⟨op.apply g, rfl, op.rowSpace_apply reversible g⟩

theorem rowSpace_performAll {edits : List RowEdit} (spared : ∀ edit ∈ edits, ¬ edit.Cancels)
    (done : performAll ⟨m, n, g⟩ edits = .ok a) :
    ∃ h : Grid m n, a = ⟨m, n, h⟩ ∧ h.rowSpace = g.rowSpace := by
  induction edits generalizing g with
  | nil =>
    cases done
    exact ⟨g, rfl, rfl⟩
  | cons edit rest ih =>
    obtain ⟨here, there⟩ := List.forall_mem_cons.mp spared
    rw [performAll, List.foldlM_cons] at done
    obtain ⟨next, step, done⟩ := ok_of_bind done
    obtain ⟨middle, rfl, first⟩ := rowSpace_perform here step
    obtain ⟨h, rfl, last⟩ := ih there done
    exact ⟨h, rfl, last.trans first⟩

/-- **A run of edits keeps the row space**, and with it the rank and the solutions of `M x = 0`, if
no row is cancelled by itself. -/
theorem performAll_keeps {edits : List RowEdit} (spared : ∀ edit ∈ edits, ¬ edit.Cancels)
    (done : performAll ⟨m, n, g⟩ edits = .ok a) :
    ∃ h : Grid m n, a = ⟨m, n, h⟩ ∧ h.rowSpace = g.rowSpace ∧
      Mat.rank ⟨m, n, h⟩ = Mat.rank ⟨m, n, g⟩ ∧
      ∀ x : Grid n 1, h.mul x = Grid.zero m 1 ↔ g.mul x = Grid.zero m 1 := by
  obtain ⟨h, rfl, same⟩ := rowSpace_performAll spared done
  refine ⟨h, rfl, same, Grid.rank_eq_of_rowSpace_eq same, fun x => ?_⟩
  rw [Grid.mul_eq_zero_iff, Grid.mul_eq_zero_iff, same]

end Edits

/-- All three edits, one row being added to itself. -/
theorem performAll_keeps_two :
    performAll ⟨2, 2, #v[#v[1, 2], #v[3, 4]]⟩
        [.swap 0 1, .scale 0 (.number (1 / 3)), .add 1 0 (.number (-1)), .add 1 1 (.number 2)] =
      .ok ⟨2, 2, #v[#v[1, 4 / 3], #v[0, 2]]⟩ ∧
    Mat.rank ⟨2, 2, #v[#v[1, 4 / 3], #v[0, 2]]⟩ = Mat.rank ⟨2, 2, #v[#v[1, 2], #v[3, 4]]⟩ := by
  have done : performAll ⟨2, 2, #v[#v[1, 2], #v[3, 4]]⟩
      [.swap 0 1, .scale 0 (.number (1 / 3)), .add 1 0 (.number (-1)), .add 1 1 (.number 2)] =
    .ok ⟨2, 2, #v[#v[1, 4 / 3], #v[0, 2]]⟩ := by decide +kernel
  obtain ⟨h, same, -, rank, -⟩ := performAll_keeps (by norm_num [Cancels, Cell.value]) done
  cases same
  exact ⟨done, rank⟩

/-- **A row that is cancelled by itself** is lost: the edit is accepted, and the row space of `[1]`
becomes that of `[0]`. -/
theorem not_keeps_cancelled :
    performAll ⟨1, 1, #v[#v[1]]⟩ [.add 0 0 (.number (-1))] = .ok ⟨1, 1, #v[#v[0]]⟩ ∧
      Grid.rowSpace (m := 1) (n := 1) #v[#v[0]] ≠ Grid.rowSpace (m := 1) (n := 1) #v[#v[1]] ∧
      Mat.rank ⟨1, 1, #v[#v[0]]⟩ = 0 ∧ Mat.rank ⟨1, 1, #v[#v[1]]⟩ = 1 := by
  have less : Grid.rank (m := 1) (n := 1) #v[#v[0]] ≠ Grid.rank (m := 1) (n := 1) #v[#v[1]] := by
    decide +kernel
  refine ⟨by decide +kernel, fun same => less (Grid.rank_eq_of_rowSpace_eq same), ?_, ?_⟩
  · decide +kernel
  · decide +kernel

end RowEdit

end ExactAlgebra
