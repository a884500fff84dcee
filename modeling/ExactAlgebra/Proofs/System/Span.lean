import ExactAlgebra.Proofs.System.Solution
import ExactAlgebra.System.Span
import Mathlib.LinearAlgebra.Matrix.Rank

/-!
# The spaces that sets of vectors span

The columns of `b` are combinations of those of `a` if and only if `a x = b` has a solution `x`, that
is, if the column space of `b` lies in that of `a`. The weights are found by one system for each
column of `b`, and these are independent of each other: there are weights if every system has a
solution, and only one choice of them if each has only one. Whether two sets span the same space is
decided in another way, by the ranks of `a`, `b` and `[a | b]`; as the column space of `[a | b]` is
the sum of the two, equal ranks mean equal spaces.

## Main statements

* `Grid.mul_eq_iff_columns` — a product column by column;
* `Grid.columnSpace_le_iff`, `Grid.rank_eq_iff_of_le` — column spaces, products and ranks;
* `solveSystem_solves`, `solveColumns_eq` — the systems for one column and for several;
* `represent_answers`, `areEquivalent_eq` — what is answered for two sets of vectors;
* `spanning_agrees` — both ways of comparing two sets agree.

## Main definitions

* `Grid.columnSpace` — the combinations of the columns;
* `SystemSolution.Solves` — an answer solves the system of one column;
* `Representation.Answers` — an answer says which weights there are.
-/

namespace ExactAlgebra

open Matrix

variable {m n p q : Nat}

namespace Grid

/-! ## Columns -/

/-- A column as a grid of its own. -/
def columnGrid (g : Grid m n) (j : Fin n) : Grid m 1 :=
  ofEntries fun i _ => g.entry i j

@[simp]
theorem entry_columnGrid (g : Grid m n) (j : Fin n) (i : Fin m) (z : Fin 1) :
    (g.columnGrid j).entry i z = g.entry i j :=
  entry_ofEntries _ i z

/-- Two grids with the same columns are equal. -/
theorem ext_columns {g h : Grid m n} (same : ∀ j, g.columnGrid j = h.columnGrid j) : g = h := by
  refine ext_entries fun i j => ?_
  rw [← entry_columnGrid g j i 0, same, entry_columnGrid]

/-- There is a grid with any given columns. -/
theorem exists_columns (columns : Fin n → Grid m 1) :
    ∃ g : Grid m n, ∀ j, g.columnGrid j = columns j := by
  refine ⟨ofEntries fun i j => (columns j).entry i 0, fun j => ext_entries fun i z => ?_⟩
  rw [Subsingleton.elim z 0, entry_columnGrid, entry_ofEntries]

theorem mul_columnGrid (a : Grid m p) (x : Grid p q) (j : Fin q) :
    a.mul (x.columnGrid j) = (a.mul x).columnGrid j := by
  refine ext_entries fun i z => ?_
  simp [entry_mul]

/-- **A product column by column.** -/
theorem mul_eq_iff_columns (a : Grid m p) (x : Grid p q) (b : Grid m q) :
    a.mul x = b ↔ ∀ j, a.mul (x.columnGrid j) = b.columnGrid j := by
  constructor
  · rintro rfl j
    exact mul_columnGrid a x j
  · intro columns
    refine ext_columns fun j => ?_
    rw [← mul_columnGrid]
    exact columns j

/-- **The solutions for several columns are independent**: there is only one if and only if every
column has only one. -/
theorem existsUnique_mul_iff (a : Grid m p) (b : Grid m q) :
    (∃! x, a.mul x = b) ↔ ∀ j, ∃! x, a.mul x = b.columnGrid j := by
  constructor
  · rintro ⟨x, solves, unique⟩ j
    have columns := (mul_eq_iff_columns a x b).mp solves
    refine ⟨x.columnGrid j, columns j, fun y solves' => ?_⟩
    -- another solution for one column would be part of another solution
    obtain ⟨other, exchanged⟩ := exists_columns (Function.update x.columnGrid j y)
    have same : other = x := by
      refine unique other ((mul_eq_iff_columns a other b).mpr fun k => ?_)
      rw [exchanged]
      by_cases here : k = j
      · rw [here, Function.update_self]
        exact solves'
      · rw [Function.update_of_ne here]
        exact columns k
    rw [← same, exchanged, Function.update_self]
  · intro unique
    choose column solves only using unique
    obtain ⟨x, columns⟩ := exists_columns column
    refine ⟨x, (mul_eq_iff_columns a x b).mpr fun j => ?_, fun y solves' => ext_columns fun j => ?_⟩
    · rw [columns]
      exact solves j
    · rw [columns]
      exact only j _ ((mul_eq_iff_columns a y b).mp solves' j)

/-! ## Column spaces -/

/-- **The column space of a grid**: all combinations of its columns. -/
def columnSpace (g : Grid m n) : Submodule ℚ (Fin m → ℚ) :=
  Submodule.span ℚ (Set.range g.toMatrix.col)

theorem mem_columnSpace {g : Grid m n} {v : Fin m → ℚ} :
    v ∈ g.columnSpace ↔ ∃ w : Fin n → ℚ, g.toMatrix *ᵥ w = v := by
  rw [columnSpace, ← range_mulVecLin, LinearMap.mem_range]
  rfl

theorem finrank_columnSpace (g : Grid m n) : Module.finrank ℚ g.columnSpace = g.rank := by
  rw [rank_eq, rank_eq_finrank_span_cols, columnSpace]

/-- **One column space lies in another if and only if one grid is a multiple of the other.** -/
theorem columnSpace_le_iff {a : Grid m p} {b : Grid m q} :
    b.columnSpace ≤ a.columnSpace ↔ ∃ x, a.mul x = b := by
  rw [columnSpace, Submodule.span_le, Set.range_subset_iff]
  constructor
  · intro inside
    choose weights combination using fun j => mem_columnSpace.mp (inside j)
    refine ⟨ofEntries fun i j => weights j i, ext_entries fun i j => ?_⟩
    rw [entry_mul]
    simpa [mulVec, dotProduct] using congrFun (combination j) i
  · rintro ⟨x, rfl⟩ j
    refine mem_columnSpace.mpr ⟨x.toMatrix.col j, ?_⟩
    rw [toMatrix_mul]
    rfl

/-- The columns of two grids side by side span the sum of both column spaces. -/
theorem columnSpace_beside (a : Grid m p) (b : Grid m q) :
    (a.beside b).columnSpace = a.columnSpace ⊔ b.columnSpace := by
  have left : ∀ j, (a.beside b).toMatrix.col (Fin.castAdd q j) = a.toMatrix.col j := by
    intro j
    funext i
    exact entry_beside_left a b i j
  have right : ∀ j, (a.beside b).toMatrix.col (Fin.natAdd p j) = b.toMatrix.col j := by
    intro j
    funext i
    exact entry_beside_right a b i j
  refine eq_of_forall_ge_iff fun space => ?_
  simp only [columnSpace, sup_le_iff, Submodule.span_le, Set.range_subset_iff, Fin.forall_fin_add,
    left, right]

/-- **A column space inside another is all of it if the ranks are equal.** -/
theorem rank_eq_iff_of_le {a : Grid m p} {b : Grid m q} (inside : a.columnSpace ≤ b.columnSpace) :
    a.rank = b.rank ↔ b.columnSpace ≤ a.columnSpace := by
  rw [← finrank_columnSpace, ← finrank_columnSpace]
  constructor
  · intro same
    exact (Submodule.eq_of_le_of_finrank_eq inside same).ge
  · intro whole
    rw [le_antisymm inside whole]

end Grid

/-! ## One column -/

/-- **An answer solves the system of one column**, and it says whether there is another solution. -/
structure SystemSolution.Solves (s : SystemSolution) (a : Grid m p) (b : Grid m 1) : Prop where
  isSolvable : s.isSolvable = true
  exists_particular : ∃ x : Grid p 1, s.particular = ⟨p, 1, x⟩ ∧ a.mul x = b
  isUnique_iff : s.isUnique = true ↔ ∃! x : Grid p 1, a.mul x = b

section Column

variable (a : Grid m p) (b : Grid m 1)

/-- **The system of one column is solved**, or it has no solution and the answer says so. -/
theorem solveSystem_solves :
    ∃ s journal, solveSystem ⟨m, p, a⟩ ⟨m, 1, b⟩ = .ok (s, journal) ∧
      (s.Solves a b ∨ s.isSolvable = false ∧ ∀ x, a.mul x ≠ b) := by
  obtain ⟨s, journal, solved, type, columns⟩ := solveSystem_eq a b
  refine ⟨s, journal, solved, ?_⟩
  have size := freeCount_reducedCoefficients a b
  by_cases less : a.rank < (a.beside b).rank
  · right
    rw [classify, if_pos less] at type
    exact ⟨by simp [SystemSolution.isSolvable, type], mul_ne_of_rank_lt a b less⟩
  · left
    rw [classify, if_neg less] at type
    have solution := mul_particular less
    by_cases full : a.rank = p
    · rw [if_pos full] at type
      rw [type] at columns
      have unique := existsUnique_of_freeCount_eq_zero less (by omega)
      exact ⟨by simp [SystemSolution.isSolvable, type], ⟨_, (Prod.mk.inj columns).1, solution⟩,
        by simpa [SystemSolution.isUnique, type] using unique⟩
    · rw [if_neg full, if_pos (by omega)] at type
      rw [type] at columns
      obtain ⟨x, y, apart, solves, solves'⟩ := exists_two_of_freeCount_pos less (by omega)
      refine ⟨by simp [SystemSolution.isSolvable, type], ⟨_, (Prod.mk.inj columns).1, solution⟩, ?_⟩
      simp only [SystemSolution.isUnique, type, reduceCtorEq, decide_false, Bool.false_eq_true,
        false_iff]
      exact fun unique => apart (unique.unique solves solves')

end Column

/-! ## Several columns -/

section Columns

variable (a : Grid m p) (b : Grid m q)

/-- A vector of known size as a column. -/
theorem Vec.toColumn_eq {v : Vec} (size : v.entries.length = m) :
    v.toColumn = ⟨m, 1, Grid.ofEntries fun i _ => v.entries[i.cast size.symm]⟩ := by
  subst size
  rfl

theorem toColumn_column (j : Fin q) :
    Vec.toColumn ⟨(b.column j).toList⟩ = ⟨m, 1, b.columnGrid j⟩ := by
  rw [Vec.toColumn_eq (m := m) (by simp)]
  congr 1
  refine Grid.ext_entries fun i z => ?_
  rw [Grid.entry_ofEntries, Grid.entry_columnGrid]
  simp only [Grid.column, Vector.getElem_toList, Fin.getElem_fin, Vector.getElem_map]
  rfl

/-- The entries of a matrix with one column, row by row, are those of the column. -/
theorem Mat.flatten_toLists_column (x : Grid p 1) :
    (Mat.toLists ⟨p, 1, x⟩).flatten = (x.column 0).toList := by
  have single : ∀ v : Vector ℚ 1, v.toList = [v[0]] := by
    intro v
    apply List.ext_getElem
    · simp
    · intro i left right
      obtain rfl : i = 0 := by simpa using right
      simp
  rw [Mat.toLists, Grid.column, Vector.toList_map, ← List.flatMap_def, List.map_eq_flatMap]
  exact List.flatMap_congr fun row _ => single row

variable {a b} {answer : Fin q → SystemSolution} {journal : Fin q → Journal}

/-- **The systems of several columns** are solved one by one, if all of them can be. -/
theorem solveColumns_eq
    (solved : ∀ j, solveSystem ⟨m, p, a⟩ ⟨m, 1, b.columnGrid j⟩ = .ok (answer j, journal j))
    (js : List (Fin q)) :
    solveColumns ⟨m, p, a⟩ (js.map fun j => (b.column j).toList) =
      .ok (if ∀ j ∈ js, (answer j).isSolvable = true then some (js.map answer) else none) := by
  induction js with
  | nil => simp [solveColumns]
  | cons j rest ih =>
    rw [List.map_cons, solveColumns, toColumn_column, solved, ih]
    simp only [bind, Except.bind, pure, Except.pure, List.forall_mem_cons]
    by_cases solvable : (answer j).isSolvable = true
    · rw [if_pos solvable]
      by_cases all : ∀ k ∈ rest, (answer k).isSolvable = true
      · rw [if_pos all, if_pos ⟨solvable, all⟩, Option.map_some, List.map_cons]
      · rw [if_neg all, if_neg fun both => all both.2, Option.map_none]
    · rw [if_neg solvable, if_neg fun both => solvable both.1]

/-- **The weights that are put together from the solutions** of all columns. -/
theorem mul_weights (solves : ∀ j, (answer j).Solves a (b.columnGrid j)) :
    a.mul (Grid.ofEntries fun i j =>
      ((((List.finRange q).map answer).map fun s => s.particular.toLists.flatten).getD j.val
        []).getD i.val 0) = b := by
  rw [Grid.mul_eq_iff_columns]
  intro j
  obtain ⟨x, particular, product⟩ := (solves j).exists_particular
  rw [← product]
  congr 1
  refine Grid.ext_entries fun i z => ?_
  rw [Subsingleton.elim z 0, Grid.entry_columnGrid, Grid.entry_ofEntries]
  simp [particular, Mat.flatten_toLists_column, Grid.column, Grid.entry, Grid.row]

end Columns

/-! ## Sets of vectors -/

/-- **An answer about two sets of vectors** says whether there are weights `x` with `a x = b`, gives
some if so, and says whether there are no others. -/
structure Representation.Answers (r : Representation) (a : Grid m p) (b : Grid m q) : Prop where
  representable_iff : r.representable = true ↔ ∃ x : Grid p q, a.mul x = b
  unique_iff : r.unique = true ↔ ∃! x : Grid p q, a.mul x = b
  weights : r.representable = true →
    ∃ x : Grid p q, r.coefficients = some ⟨p, q, x⟩ ∧ a.mul x = b

section Sets

variable (a : Grid m p) (b : Grid m q)

/-- **The weights are found exactly if there are some.** -/
theorem represent_answers :
    ∃ r, represent ⟨m, p, a⟩ ⟨m, q, b⟩ = .ok r ∧ r.Answers a b := by
  choose answer journal solved answers using fun j => solveSystem_solves a (b.columnGrid j)
  rw [represent, checkVectorSize, if_pos rfl, Mat.columns]
  simp only [bind, Except.bind]
  rw [solveColumns_eq solved]
  by_cases all : ∀ j ∈ List.finRange q, (answer j).isSolvable = true
  · rw [if_pos all]
    have solves : ∀ j, (answer j).Solves a (b.columnGrid j) := by
      intro j
      refine (answers j).resolve_right ?_
      rintro ⟨unsolvable, -⟩
      exact Bool.false_ne_true (unsolvable.symm.trans (all j (List.mem_finRange j)))
    refine ⟨_, rfl, ⟨fun _ => ⟨_, mul_weights solves⟩, fun _ => rfl⟩, ?_,
      fun _ => ⟨_, rfl, mul_weights solves⟩⟩
    rw [Grid.existsUnique_mul_iff]
    simp [fun j => (solves j).isUnique_iff]
  · rw [if_neg all]
    have none : ¬ ∃ x, a.mul x = b := by
      rintro ⟨x, solution⟩
      refine all fun j _ => ?_
      rcases answers j with solves | ⟨-, none⟩
      · exact solves.isSolvable
      · exact absurd ((Grid.mul_eq_iff_columns a x b).mp solution j) (none _)
    refine ⟨_, rfl, ?_, ?_, ?_⟩
    · simpa using none
    · simpa using fun unique => none unique.exists
    · simp

/-- **Equal ranks mean equal spaces.** -/
theorem areEquivalent_eq :
    ∃ e, areEquivalent ⟨m, p, a⟩ ⟨m, q, b⟩ = .ok e ∧
      (e = true ↔ b.columnSpace ≤ a.columnSpace ∧ a.columnSpace ≤ b.columnSpace) := by
  have left : a.rank = (a.beside b).rank ↔ b.columnSpace ≤ a.columnSpace := by
    rw [Grid.rank_eq_iff_of_le] <;> simp [Grid.columnSpace_beside]
  have right : b.rank = (a.beside b).rank ↔ a.columnSpace ≤ b.columnSpace := by
    rw [Grid.rank_eq_iff_of_le] <;> simp [Grid.columnSpace_beside]
  rw [areEquivalent, checkVectorSize, if_pos rfl, augment_eq]
  refine ⟨_, rfl, ?_⟩
  rw [Bool.and_eq_true, decide_eq_true_iff, decide_eq_true_iff]
  exact and_congr left right

end Sets

end ExactAlgebra
