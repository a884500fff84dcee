import ExactAlgebra.Matrix.Operation
import ExactAlgebra.Proofs.Elimination.Determinant

/-!
# Expansion computes the determinant

Expanding along first rows gives the determinant by induction on the size: a minor is one smaller,
and the terms that are passed over are zero. The expansion along one chosen line is then a sum of
entries and cofactors of that line, whichever line it is; so all that has to be known of the line
with the most zeros is that it is a line of the matrix.

## Main statements

* `Grid.expand_eq` — the expansion along first rows;
* `expansionTotal_expansionTerms` — the last running total is the sum of the terms;
* `Mat.sparsestLine_index_lt` — the line with the most zeros is a line of the matrix;
* `Grid.expandBy_eq` — the expansion along the line that a strategy chooses;
* `Mat.determinants_eq_leibniz` — elimination and both expansions give the sum over permutations.
-/

namespace ExactAlgebra

open Matrix

/-! ## Minors and signs -/

theorem checkerSign_eq (i j : Nat) : checkerSign i j = (-1 : ℚ) ^ (i + j) := by
  rw [checkerSign]
  split
  · rename_i even
    exact (Even.neg_one_pow (Nat.even_iff.mpr even)).symm
  · rename_i odd
    exact (Odd.neg_one_pow (Nat.odd_iff.mpr (by omega))).symm

theorem toMatrix_minor {m n : Nat} (g : Grid (m + 1) (n + 1)) (i : Fin (m + 1)) (j : Fin (n + 1)) :
    Grid.toMatrix (m := m) (n := n) (g.minor i j) =
      g.toMatrix.submatrix i.succAbove j.succAbove := by
  ext k l
  exact Grid.entry_minor g i j k l

/-- A running total that passes over some terms is a sum if those terms are zero. -/
theorem foldl_ite_add {α : Type} (skip : α → Prop) [DecidablePred skip] (value : α → ℚ)
    (zero : ∀ a, skip a → value a = 0) (start : ℚ) (as : List α) :
    as.foldl (fun total a => if skip a then total else total + value a) start =
      start + (as.map value).sum := by
  induction as generalizing start with
  | nil => simp
  | cons a rest ih =>
    rw [List.foldl_cons, ih, List.map_cons, List.sum_cons]
    split
    · rename_i passed
      rw [zero a passed, zero_add]
    · rw [add_assoc]

/-! ## Expansion along first rows -/

/-- **The expansion along first rows gives the determinant.** -/
theorem Grid.expand_eq {n : Nat} (g : Grid n n) : g.expand = g.toMatrix.det := by
  induction n using Nat.strong_induction_on with
  | _ n ih =>
    match n, g with
    | 0, g => exact Matrix.det_fin_zero.symm
    | 1, g => exact (Matrix.det_fin_one g.toMatrix).symm
    | 2, g => exact (Matrix.det_fin_two g.toMatrix).symm
    | n + 3, g =>
      -- the entries that are passed over are zero, so the total is the whole Laplace sum
      have sum := foldl_ite_add (fun j => g.entry 0 j = 0)
        (fun j => checkerSign 0 j.val * g.entry 0 j * Grid.expand (g.minor 0 j))
        (fun j zero => by simp [zero]) 0 (List.finRange (n + 3))
      rw [zero_add, ← Fin.sum_univ_def] at sum
      refine sum.trans ?_
      rw [Matrix.det_succ_row_zero]
      refine Finset.sum_congr rfl fun j _ => ?_
      have smaller := ih (n + 2) (by omega) (g.minor 0 j)
      rw [toMatrix_minor] at smaller
      rw [checkerSign_eq, zero_add, ← Fin.succAbove_zero]
      exact congrArg _ smaller

/-! ## Expansion along a line -/

/-- The product of an entry with its cofactor. -/
def laplaceTerm {n : Nat} (g : Grid n n) (place : Fin n × Fin n) : ℚ :=
  g.entry place.1 place.2 *
    (checkerSign place.1.val place.2.val * (g.minor place.1 place.2).expand)

theorem expansionTerm_total {n : Nat} (g : Grid n n) (position : Nat) (i j : Fin n) (total : ℚ) :
    (expansionTerm g position i j total).total = total + laplaceTerm g (i, j) := by
  rw [expansionTerm, laplaceTerm]
  by_cases zero : g.entry i j = 0
  · simp [zero]
  · simp [zero]

/-- **The last running total is the sum of the terms.** -/
theorem expandAlong_total {n : Nat} (g : Grid n n) (position : Nat) (total : ℚ)
    (places : List (Fin n × Fin n)) :
    ((expandAlong g position total places).getLast?.map (·.total)).getD total =
      total + (places.map (laplaceTerm g)).sum := by
  induction places generalizing position total with
  | nil => simp [expandAlong]
  | cons place rest ih =>
    obtain ⟨i, j⟩ := place
    have tail := ih (position + 1) (expansionTerm g position i j total).total
    rw [expandAlong, List.getLast?_cons, List.map_cons, List.sum_cons, ← add_assoc,
      ← expansionTerm_total g position, ← tail]
    cases (expandAlong g (position + 1) (expansionTerm g position i j total).total rest).getLast?
    · rfl
    · rfl

/-- **Along any line of the grid the terms add up to the determinant.** -/
theorem expansionTotal_expansionTerms {n : Nat} (g : Grid n n) {line : Line}
    (inside : line.index < n) : expansionTotal (expansionTerms g line) = g.toMatrix.det := by
  obtain _ | n := n
  · omega
  rw [expansionTotal, expansionTerms, expandAlong_total, zero_add, linePlaces, dif_pos inside,
    List.map_map, ← Fin.sum_univ_def]
  have term : ∀ i j : Fin (n + 1), laplaceTerm g (i, j) =
      (-1) ^ (i.val + j.val) * g.toMatrix i j *
        (g.toMatrix.submatrix i.succAbove j.succAbove).det := by
    intro i j
    have smaller : (g.minor i j).expand = (Grid.toMatrix (m := n) (n := n) (g.minor i j)).det :=
      Grid.expand_eq (n := n) (g.minor i j)
    rw [← toMatrix_minor, ← checkerSign_eq, laplaceTerm, smaller, Grid.toMatrix_apply]
    ring
  cases line with
  | row i =>
    rw [Matrix.det_succ_row _ ⟨i, inside⟩]
    exact Finset.sum_congr rfl fun j _ => term _ j
  | column j =>
    rw [Matrix.det_succ_column _ ⟨j, inside⟩]
    exact Finset.sum_congr rfl fun i _ => term i _

/-! ## The line with the most zeros -/

/-- The line that comes first among those with the most zeros is one of those looked at. -/
theorem firstSparsest_mem (best : Line × Nat) (lines : List (Line × Nat)) :
    ∃ entry ∈ best :: lines, firstSparsest best lines = entry.1 := by
  induction lines generalizing best with
  | nil => exact ⟨best, List.mem_cons_self, rfl⟩
  | cons next rest ih =>
    rw [firstSparsest]
    obtain ⟨entry, mem, same⟩ := ih (if best.2 < next.2 then next else best)
    refine ⟨entry, ?_, same⟩
    rcases List.mem_cons.mp mem with rfl | mem
    · split <;> simp
    · exact List.mem_cons_of_mem _ (List.mem_cons_of_mem _ mem)

/-- The lines of a square matrix have numbers below its size. -/
theorem Mat.index_lt_of_mem_lineZeros {n : Nat} {g : Grid n n} {entry : Line × Nat}
    (mem : entry ∈ (⟨n, n, g⟩ : Mat).lineZeros) : entry.1.index < n := by
  rcases List.mem_append.mp mem with mem | mem
  · obtain ⟨⟨values, i⟩, at_i, rfl⟩ := List.mem_map.mp mem
    have bound := (List.mem_zipIdx at_i).2.1
    simpa [Mat.toLists, Line.index] using bound
  · obtain ⟨⟨values, j⟩, at_j, rfl⟩ := List.mem_map.mp mem
    have bound := (List.mem_zipIdx at_j).2.1
    simpa [Mat.columns, Line.index] using bound

/-- **The line with the most zeros is a line of the matrix.** -/
theorem Mat.sparsestLine_index_lt {n : Nat} (g : Grid n n) (nonempty : 0 < n) :
    (⟨n, n, g⟩ : Mat).sparsestLine.index < n := by
  rw [Mat.sparsestLine]
  split
  · exact nonempty
  · rename_i first rest lines
    obtain ⟨entry, mem, same⟩ := firstSparsest_mem first rest
    rw [same]
    exact Mat.index_lt_of_mem_lineZeros (lines ▸ mem)

theorem Strategy.ofName_name (strategy : Strategy) : ofName strategy.name = .ok strategy := by
  cases strategy <;> rfl

theorem Strategy.index_line_lt {n : Nat} (strategy : Strategy) (g : Grid n n) (nonempty : 0 < n) :
    (strategy.line ⟨n, n, g⟩).index < n := by
  cases strategy with
  | firstRow => exact nonempty
  | sparsest => exact Mat.sparsestLine_index_lt g nonempty

/-- **The expansion along the line that a strategy chooses gives the determinant.** -/
theorem Grid.expandBy_eq {n : Nat} (strategy : Strategy) (g : Grid n n) :
    g.expandBy strategy = g.toMatrix.det := by
  rw [Grid.expandBy]
  split
  · exact g.expand_eq
  · exact expansionTotal_expansionTerms g (strategy.index_line_lt g (by omega))

/-! ## Agreement -/

theorem Mat.squareGrid_square {n : Nat} (operation : String) (g : Grid n n) :
    Mat.squareGrid operation ⟨n, n, g⟩ = .ok g := by
  rw [Mat.squareGrid, dif_pos rfl, Grid.castCols_self]

theorem Mat.det_square {n : Nat} (g : Grid n n) : Mat.det ⟨n, n, g⟩ = .ok g.det := by
  rw [Mat.det, Mat.squareGrid_square]
  rfl

/-- **Elimination and both expansions give the sum over permutations**, for square matrices of
every size. -/
theorem Mat.determinants_eq_leibniz {n : Nat} (g : Grid n n) :
    let leibniz : ℚ :=
      ∑ σ : Equiv.Perm (Fin n), ((Equiv.Perm.sign σ : ℤ) : ℚ) * ∏ i, g.entry (σ i) i
    Mat.det ⟨n, n, g⟩ = .ok leibniz ∧
      Mat.expand "first_row" ⟨n, n, g⟩ = .ok leibniz ∧
      Mat.expand "optimal" ⟨n, n, g⟩ = .ok leibniz := by
  intro leibniz
  have total : g.toMatrix.det = leibniz := Matrix.det_apply' g.toMatrix
  have first : Strategy.ofName "first_row" = .ok .firstRow := rfl
  have sparsest : Strategy.ofName "optimal" = .ok .sparsest := rfl
  refine ⟨?_, ?_, ?_⟩
  · rw [Mat.det, Mat.squareGrid_square]
    exact congrArg Except.ok (g.det_eq.trans total)
  · rw [Mat.expand, Mat.squareGrid_square, first]
    exact congrArg Except.ok ((g.expandBy_eq .firstRow).trans total)
  · rw [Mat.expand, Mat.squareGrid_square, sparsest]
    exact congrArg Except.ok ((g.expandBy_eq .sparsest).trans total)

end ExactAlgebra
