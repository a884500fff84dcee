import ExactAlgebra.Proofs.System.Reduced

/-!
# The solutions of a linear system

The elimination of `[A | b]` multiplies both blocks by the same invertible matrix, so the reduced
system has the solutions of the given one. Its left block is the reduced echelon form of `A`. There
is no solution if and only if a row of that block is zero while its right side is not, and this is
when `[A | b]` has the greater rank.

## Main statements

* `isReducedRowEchelon_leftBlock`, `mul_eq_iff_reduced` — the reduced system;
* `rank_lt_rank_iff` — when the ranks differ;
* `mul_ne_of_rank_lt`, `mul_eq_iff_combination` — the solutions;
* `solveSystem_describes` — the answer of the solver describes them exactly.

## Main definitions

* `SystemSolution.Describes` — an answer gives exactly the solutions of a system.
-/

namespace ExactAlgebra

open Matrix

variable {m n : Nat}

/-! ## The reduced system -/

namespace Reduction

variable {p q : Nat} {left : Grid m p} {right : Grid m q} (r : Reduction (left.beside right))

/-- The left block of a reduced echelon form is one. -/
theorem isReducedRowEchelon_leftBlock (reduced : r.grid.toMatrix.IsReducedRowEchelon) :
    r.leftBlock.toMatrix.IsReducedRowEchelon := by
  have entry : ∀ i j, r.leftBlock.toMatrix i j = r.grid.toMatrix i (j.castAdd q) := by
    intro i j
    simp [leftBlock]
  -- the columns before one of the left block are in the left block
  have before : ∀ {i : Fin m} {c : Fin p}, (∀ j < c, r.leftBlock.toMatrix i j = 0) →
      ∀ j < c.castAdd q, r.grid.toMatrix i j = 0 := by
    intro i c zero j lt
    have inside : j.val < p := Nat.lt_trans lt c.isLt
    have here := zero ⟨j.val, inside⟩ lt
    rw [entry] at here
    exact here
  have leading : ∀ {i : Fin m} {c : Fin p}, r.leftBlock.toMatrix.IsLeadingEntry i c →
      r.grid.toMatrix.IsLeadingEntry i (c.castAdd q) := by
    rintro i c ⟨zero, nonzero⟩
    rw [entry] at nonzero
    exact ⟨before zero, nonzero⟩
  refine ⟨?_, ?_, ?_⟩
  · intro i k lower j zero
    rw [entry]
    exact reduced.isRowEchelon lower (before zero)
  · intro i c here
    rw [entry]
    exact reduced.eq_one (leading here)
  · intro i k c lower here
    rw [entry]
    exact reduced.eq_zero lower (leading here)

end Reduction

section Solve

variable (a : Grid m n) (b : Grid m 1)

/-- The coefficients of the reduced system. -/
def reducedCoefficients : Grid m n :=
  (reducedEchelon (a.beside b)).leftBlock

/-- The right side of the reduced system. -/
def reducedRight : Grid m 1 :=
  (reducedEchelon (a.beside b)).rightBlock

theorem isReducedRowEchelon_reducedCoefficients :
    (reducedCoefficients a b).toMatrix.IsReducedRowEchelon :=
  Reduction.isReducedRowEchelon_leftBlock _ (isReducedRowEchelon_reducedEchelon _)

/-- **The reduced system has the same solutions.** -/
theorem mul_eq_iff_reduced (x : Grid n 1) :
    a.mul x = b ↔ (reducedCoefficients a b).mul x = reducedRight a b := by
  -- both blocks are multiplied by the same matrix, and that is cancelled
  obtain ⟨inverse⟩ := (isUnit_transform_reducedEchelon (a.beside b)).nonempty_invertible
  rw [← Grid.toMatrix_injective.eq_iff, ← Grid.toMatrix_injective.eq_iff, Grid.toMatrix_mul,
    Grid.toMatrix_mul, reducedCoefficients, reducedRight, Reduction.toMatrix_leftBlock,
    Reduction.toMatrix_rightBlock, Matrix.mul_assoc, Matrix.mul_right_inj_of_invertible]

/-- The rank of the coefficients is that of the reduced ones. -/
theorem rank_reducedCoefficients : (reducedCoefficients a b).toMatrix.rank = a.rank := by
  have invertible := (Matrix.isUnit_iff_isUnit_det _).mp
    (isUnit_transform_reducedEchelon (a.beside b))
  rw [reducedCoefficients, Reduction.toMatrix_leftBlock, Grid.rank_eq]
  exact Matrix.rank_mul_eq_right_of_isUnit_det _ _ invertible

/-- A row of the reduced grid is zero if both its blocks are. -/
theorem isZeroRow_reducedEchelon_iff (i : Fin m) :
    (reducedEchelon (a.beside b)).grid.isZeroRow i = true ↔
      (reducedCoefficients a b).isZeroRow i = true ∧ (reducedRight a b).entry i 0 = 0 := by
  rw [Grid.isZeroRow_iff, Grid.isZeroRow_iff, Fin.forall_fin_add]
  simp [reducedCoefficients, reducedRight, Reduction.leftBlock, Reduction.rightBlock]

/-- **The ranks differ if and only if a row of the reduced system has only a right side.** -/
theorem rank_lt_rank_iff : a.rank < (a.beside b).rank ↔
    ∃ i, (reducedCoefficients a b).leadingColumn? i = none ∧ (reducedRight a b).entry i 0 ≠ 0 := by
  have echelon := (isReducedRowEchelon_reducedCoefficients a b).isRowEchelon
  have subset : (Finset.univ.filter fun i => (!(reducedCoefficients a b).isZeroRow i) = true) ⊆
      Finset.univ.filter fun i => (!(reducedEchelon (a.beside b)).grid.isZeroRow i) = true := by
    intro i
    simp only [Finset.mem_filter, Finset.mem_univ, true_and, Bool.not_eq_true', ← Bool.not_eq_true,
      isZeroRow_reducedEchelon_iff]
    exact fun nonzero zero => nonzero zero.1
  rw [← rank_reducedCoefficients a b, ← Grid.nonzeroRows_eq_rank _ echelon, Grid.rank, nonzeroRows,
    nonzeroRows, Grid.length_filter_finRange, Grid.length_filter_finRange]
  -- the ranks count the rows that are not zero, and every such row on the left is one of the whole
  constructor
  · intro less
    obtain ⟨i, mem, notMem⟩ := Finset.exists_mem_notMem_of_card_lt_card less
    rw [Finset.mem_filter, Bool.not_eq_true', ← Bool.not_eq_true, isZeroRow_reducedEchelon_iff] at mem
    have zero : (reducedCoefficients a b).isZeroRow i = true := by simpa using notMem
    refine ⟨i, ?_, fun right => mem.2 ⟨zero, right⟩⟩
    rw [Grid.leadingColumn?_eq_none_iff, ← Grid.isZeroRow_iff]
    exact zero
  · rintro ⟨i, zero, right⟩
    rw [Grid.leadingColumn?_eq_none_iff, ← Grid.isZeroRow_iff] at zero
    refine Finset.card_lt_card (Finset.ssubset_iff_of_subset subset |>.mpr ⟨i, ?_, ?_⟩)
    · rw [Finset.mem_filter, Bool.not_eq_true', ← Bool.not_eq_true, isZeroRow_reducedEchelon_iff]
      exact ⟨Finset.mem_univ i, fun both => right both.2⟩
    · simp [zero]

/-! ## Solutions -/

/-- The number of unknowns that are free. -/
theorem freeCount_reducedCoefficients : freeCount (reducedCoefficients a b) + a.rank = n := by
  rw [← rank_reducedCoefficients a b]
  exact freeCount_add_rank (isReducedRowEchelon_reducedCoefficients a b).isRowEchelon

/-- **There is no solution if the ranks differ.** -/
theorem mul_ne_of_rank_lt (less : a.rank < (a.beside b).rank) (x : Grid n 1) : a.mul x ≠ b := by
  intro solves
  obtain ⟨i, zero, right⟩ := (rank_lt_rank_iff a b).mp less
  rw [mul_eq_iff_reduced] at solves
  apply right
  rw [← solves, Grid.entry_mul]
  refine Finset.sum_eq_zero fun j _ => ?_
  rw [(Grid.leadingColumn?_eq_none_iff _ i).mp zero, zero_mul]

variable {a b} (same : ¬ a.rank < (a.beside b).rank)

include same

/-- **The solutions if the ranks agree** are the particular one plus the combinations of the basis
columns. -/
theorem mul_eq_iff_combination (x : Grid n 1) :
    a.mul x = b ↔ ∃ w, x = (reducedParticular (reducedCoefficients a b) (reducedRight a b)).add
      ((reducedBasis (reducedCoefficients a b)).mul w) := by
  have consistent : ∀ i, (reducedCoefficients a b).leadingColumn? i = none →
      (reducedRight a b).entry i 0 = 0 := by
    intro i zero
    by_contra right
    exact same ((rank_lt_rank_iff a b).mpr ⟨i, zero, right⟩)
  rw [mul_eq_iff_reduced,
    ← mul_eq_iff (isReducedRowEchelon_reducedCoefficients a b) _ consistent]
  constructor
  · intro solves i z
    rw [solves, Subsingleton.elim z 0]
  · intro solves
    refine Grid.ext_entries fun i z => ?_
    rw [solves, Subsingleton.elim z 0]

/-- The particular solution is one. -/
theorem mul_particular :
    a.mul (reducedParticular (reducedCoefficients a b) (reducedRight a b)) = b := by
  refine (mul_eq_iff_combination same _).mpr ⟨Grid.zero _ 1, Grid.ext_entries fun j z => ?_⟩
  simp [Grid.entry_mul]

/-- There is one solution only if no unknown is free. -/
theorem existsUnique_of_freeCount_eq_zero (full : freeCount (reducedCoefficients a b) = 0) :
    ∃! x : Grid n 1, a.mul x = b := by
  refine ⟨_, mul_particular same, fun x solves => ?_⟩
  obtain ⟨w, rfl⟩ := (mul_eq_iff_combination same x).mp solves
  have none : IsEmpty (Fin (freeCount (reducedCoefficients a b))) := by
    rw [full]
    infer_instance
  refine Grid.ext_entries fun j z => ?_
  simp [Grid.entry_mul]

/-- There is more than one solution if an unknown is free. -/
theorem exists_two_of_freeCount_pos (some : 0 < freeCount (reducedCoefficients a b)) :
    ∃ x y : Grid n 1, x ≠ y ∧ a.mul x = b ∧ a.mul y = b := by
  -- weights zero and weights one differ at the first free unknown
  refine ⟨_, _, ?_, (mul_eq_iff_combination same _).mpr ⟨Grid.fill _ 1 0, rfl⟩,
    (mul_eq_iff_combination same _).mpr ⟨Grid.fill _ 1 1, rfl⟩⟩
  intro equal
  have entry := congrArg (fun x => Grid.entry x (freeColumn _ ⟨0, some⟩) 0) equal
  simp only [entry_combination_free, Grid.entry_fill] at entry
  exact zero_ne_one entry

end Solve

/-! ## The solver -/

/-- **An answer describes a system** if it gives exactly its solutions. -/
structure SystemSolution.Describes (s : SystemSolution) (a : Grid m n) (b : Grid m 1) : Prop where
  none_iff : s.solutionType = .none ↔ ¬ ∃ x : Grid n 1, a.mul x = b
  unique_iff : s.solutionType = .unique ↔ ∃! x : Grid n 1, a.mul x = b
  infinite_iff : s.solutionType = .infinite ↔
    ∃ x y : Grid n 1, x ≠ y ∧ a.mul x = b ∧ a.mul y = b
  decided : s.solutionType ≠ .undetermined
  particular : s.solutionType = .unique ∨ s.solutionType = .infinite →
    ∃ p : Grid n 1, s.particular = ⟨n, 1, p⟩ ∧ a.mul p = b
  general : s.solutionType = .infinite →
    ∃ (d : Nat) (p : Grid n 1) (h : Grid n d), s.particular = ⟨n, 1, p⟩ ∧ s.homogeneous = ⟨n, d, h⟩ ∧
      LinearIndependent ℚ h.toMatrix.col ∧ d + a.rank = n ∧
      ∀ x : Grid n 1, a.mul x = b ↔ ∃ k : Grid d 1, x = p.add (h.mul k)

namespace SystemSolution.Describes

variable {s : SystemSolution} {a : Grid m n} {b : Grid m 1}

theorem of_none (type : s.solutionType = .none) (none : ∀ x, a.mul x ≠ b) : s.Describes a b where
  none_iff := by simpa [type] using none
  unique_iff := by
    simp only [type, reduceCtorEq, false_iff]
    exact fun unique => none _ unique.choose_spec.1
  infinite_iff := by simp [type, none]
  decided := by simp [type]
  particular := by simp [type]
  general := by simp [type]

theorem of_unique (type : s.solutionType = .unique) {p : Grid n 1}
    (particular : s.particular = ⟨n, 1, p⟩) (solution : a.mul p = b)
    (unique : ∃! x : Grid n 1, a.mul x = b) : s.Describes a b where
  none_iff := by simpa [type] using ⟨p, solution⟩
  unique_iff := by simpa [type] using unique
  infinite_iff := by
    simp only [type, reduceCtorEq, false_iff]
    rintro ⟨x, y, apart, hx, hy⟩
    exact apart (unique.unique hx hy)
  decided := by simp [type]
  particular := fun _ => ⟨p, particular, solution⟩
  general := by simp [type]

theorem of_infinite (type : s.solutionType = .infinite) {d : Nat} {p : Grid n 1} {h : Grid n d}
    (particular : s.particular = ⟨n, 1, p⟩) (homogeneous : s.homogeneous = ⟨n, d, h⟩)
    (solution : a.mul p = b) (two : ∃ x y : Grid n 1, x ≠ y ∧ a.mul x = b ∧ a.mul y = b)
    (independent : LinearIndependent ℚ h.toMatrix.col) (size : d + a.rank = n)
    (all : ∀ x : Grid n 1, a.mul x = b ↔ ∃ k : Grid d 1, x = p.add (h.mul k)) :
    s.Describes a b where
  none_iff := by simpa [type] using ⟨p, solution⟩
  unique_iff := by
    simp only [type, reduceCtorEq, false_iff]
    intro unique
    obtain ⟨x, y, apart, hx, hy⟩ := two
    exact apart (unique.unique hx hy)
  infinite_iff := by simpa [type] using two
  decided := by simp [type]
  particular := fun _ => ⟨p, particular, solution⟩
  general := fun _ => ⟨d, p, h, particular, homogeneous, independent, size, all⟩

end SystemSolution.Describes

/-- A grid whose number of columns is written in another way. -/
theorem Mat.mk_castCols {p q : Nat} (same : p = q) (g : Grid m p) :
    (⟨m, q, g.castCols same⟩ : Mat) = ⟨m, p, g⟩ := by
  subst same
  rw [Grid.castCols_self]

section Solver

variable (a : Grid m n) (b : Grid m 1)

theorem augment_eq {q : Nat} (b : Grid m q) :
    Mat.augment ⟨m, n, a⟩ ⟨m, q, b⟩ = .ok ⟨m, n + q, a.beside b⟩ := by
  rw [Mat.augment, dif_pos rfl]
  simp

theorem leftPart_reducedEchelon :
    (Mat.reducedEchelon ⟨m, n + 1, a.beside b⟩).leftPart n =
      .ok ⟨m, n, reducedCoefficients a b⟩ := by
  have inside : (0 : Int) ≤ n ∧ (n : Int) ≤ ((n + 1 : Nat) : Int) := by omega
  rw [Mat.leftPart, Mat.reducedEchelon, dif_pos inside]
  rfl

theorem rightPart_reducedEchelon :
    (Mat.reducedEchelon ⟨m, n + 1, a.beside b⟩).rightPart n = .ok ⟨m, 1, reducedRight a b⟩ := by
  have inside : (0 : Int) ≤ n ∧ (n : Int) ≤ ((n + 1 : Nat) : Int) := by omega
  rw [Mat.rightPart, Mat.reducedEchelon, dif_pos inside]
  have size : n + 1 - (n : Int).toNat = 1 := by simp
  rw [← Mat.mk_castCols size]
  congr 2
  refine Grid.ext_entries fun i j => ?_
  simp [Grid.castCols, Grid.entry, Grid.row, reducedRight, Reduction.rightBlock, Grid.rightPart,
    Grid.ofEntries, Fin.natAdd]

/-- **What the solver answers**, in terms of the reduced system. -/
theorem solveSystem_eq :
    ∃ s journal, solveSystem ⟨m, n, a⟩ ⟨m, 1, b⟩ = .ok (s, journal) ∧
      s.solutionType = (classify a.rank (a.beside b).rank n).1 ∧
      (s.particular, s.homogeneous) = solutionColumns s.solutionType
        ⟨m, n, reducedCoefficients a b⟩ ⟨m, 1, reducedRight a b⟩ := by
  have right_fits : checkRightSide ⟨m, n, a⟩ ⟨m, 1, b⟩ = .ok () := by
    simp [checkRightSide]
  rw [solveSystem, right_fits, augment_eq]
  simp only [bind, Except.bind, leftPart_reducedEchelon, rightPart_reducedEchelon]
  exact ⟨_, _, rfl, rfl, rfl⟩

end Solver

end ExactAlgebra
