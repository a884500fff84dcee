import ExactAlgebra.Numbered.System
import ExactAlgebra.Proofs.Numbered.Elimination
import ExactAlgebra.Proofs.System.Span

/-!
# Systems ask for what is there

The columns of the pivots of a reduced matrix stand at the places of their rows, so the equation of
each pivot is looked up in a row that is there, and the free columns are numbered by the columns of
the basis. A solution that is asked for has as many entries as there are unknowns. So no step of the
solver by numbers is refused, nor any of the comparison of two sets of vectors; what is refused are
right sides and vectors of the wrong size.

## Main statements

* `Numbered.pivotColumns_eq`, `Numbered.zipIdx_pivots`, `Numbered.zipIdx_free` — pivots and free
  columns with their numbers;
* `Numbered.particularSolution_eq`, `Numbered.homogeneousBasis_eq`, `Numbered.solve_eq` — systems;
* `Numbered.represent_eq`, `Numbered.areEquivalent_eq`, `Numbered.compare_eq` — sets of vectors.

## Main definitions

* `pivotPlaces` — the pivots of a reduced grid with their rows;
* `Numbered.weightsOf` — the weights that are put together from solutions.
-/

namespace ExactAlgebra

variable {m n p q : Nat}

/-- **The pivots of a reduced grid**, each with its row. -/
def pivotPlaces (g : Grid m n) : List (Fin m × Fin n) :=
  (List.finRange m).filterMap fun i => (g.leadingColumn? i).map fun c => (i, c)

theorem mem_pivotPlaces {g : Grid m n} {i : Fin m} {c : Fin n} :
    (i, c) ∈ pivotPlaces g ↔ g.leadingColumn? i = some c := by
  simp [pivotPlaces]

namespace Numbered

/-! ## Pivots and free columns -/

theorem leadingColumn?_eq (g : Grid m n) (i : Fin m) :
    leadingColumn? ⟨m, n, g⟩ i.val = .ok ((g.leadingColumn? i).map Fin.val) := by
  rw [leadingColumn?, Grid.leadingColumn?, range_eq]
  refine findM?_map_ok Fin.val fun j _ => ?_
  rw [Mat.get_val]
  rfl

/-- **The columns of the pivots** are the leading columns of the rows. -/
theorem pivotColumns_eq (g : Grid m n) :
    pivotColumns ⟨m, n, g⟩ = .ok ((Mat.leadingColumns ⟨m, n, g⟩).map Fin.val) := by
  rw [pivotColumns, range_eq, mapM_name_ok Fin.val fun i _ => leadingColumn?_eq g i, bind_ok,
    Mat.leadingColumns, List.map_filterMap]
  exact congrArg Except.ok List.filterMap_map

/-- **The columns of the pivots with their numbers** are the pivots with their rows. -/
theorem zipIdx_pivots {g : Grid m n} (echelon : g.toMatrix.IsRowEchelon) :
    ((Mat.leadingColumns ⟨m, n, g⟩).map Fin.val).zipIdx =
      (pivotPlaces g).map fun pivot => (pivot.2.val, pivot.1.val) := by
  refine List.ext_getElem? fun k => ?_
  have places : (pivotPlaces g)[k]? =
      (List.finRange m)[k]?.bind fun i => (g.leadingColumn? i).map fun c => (i, c) := by
    refine getElem?_filterMap_of_last _ _ ?_ k
    refine (List.pairwise_lt_finRange m).imp fun {i k} lower none => ?_
    rw [Option.map_eq_none_iff, Grid.leadingColumn?_eq_none_iff] at none ⊢
    exact fun j => congrFun (echelon.row_eq_zero_of_lt lower (funext none)) j
  rw [List.getElem?_zipIdx, List.getElem?_map, Grid.getElem?_leadingColumns echelon,
    List.getElem?_map, places]
  by_cases inside : k < m
  · cases leading : g.leadingColumn? ⟨k, inside⟩ <;> simp [inside, leading]
  · simp [inside]

/-- **The free columns with their numbers.** -/
theorem zipIdx_free (g : Grid m n) :
    ((List.range n).filter (· ∉ (Mat.leadingColumns ⟨m, n, g⟩).map Fin.val)).zipIdx =
      (List.finRange (freeCount g)).map fun k => ((freeColumn g k).val, k.val) := by
  have free : (List.range n).filter (· ∉ (Mat.leadingColumns ⟨m, n, g⟩).map Fin.val) =
      (freeColumns ⟨m, n, g⟩).map Fin.val := by
    rw [range_eq, List.filter_map, freeColumns]
    congr 1
    refine List.filter_congr fun j _ => decide_eq_decide.mpr (not_congr ?_)
    exact List.mem_map_of_injective Fin.val_injective
  rw [free]
  refine List.ext_getElem ?_ fun k left right => ?_
  · simp [freeCount]
  · simp [freeColumn]

/-! ## Solutions -/

section Reduced

variable {g : Grid m n} (echelon : g.toMatrix.IsRowEchelon)

include echelon

/-- **The particular solution** is written at the columns of the pivots. -/
theorem particularSolution_eq (d : Grid m 1) :
    particularSolution ⟨m, n, g⟩ ⟨m, 1, d⟩ ((Mat.leadingColumns ⟨m, n, g⟩).map Fin.val) =
      .ok ⟨n, 1, reducedParticular g d⟩ := by
  rw [particularSolution, zipIdx_pivots echelon]
  refine foldlM_writeEntry (fun pivot _ x =>
    writeEntry_val x pivot.2 0 (Mat.get_val d pivot.1 0)) ?_ ?_
  · intro pivot mem
    exact entry_particular_leading echelon d (mem_pivotPlaces.mp mem) 0
  · intro c z unwritten
    have free : ∀ i, g.leadingColumn? i ≠ some c := by
      intro i leading
      refine unwritten (i, c) (mem_pivotPlaces.mpr leading) ?_
      rw [Subsingleton.elim z 0]
    rw [entry_particular_free d free]
    simp

/-- What is written into the column of the basis for a free unknown. -/
def basisEntries (g : Grid m n) (k : Fin (freeCount g)) :
    List ((Fin n × Fin (freeCount g)) × ℚ) :=
  ((freeColumn g k, k), 1) :: (pivotPlaces g).map fun pivot =>
    ((pivot.2, k), -g.entry pivot.1 (freeColumn g k))

theorem basisColumn_eq (k : Fin (freeCount g)) (h : Grid n (freeCount g)) :
    basisColumn ⟨m, n, g⟩ ((Mat.leadingColumns ⟨m, n, g⟩).map Fin.val) ⟨n, freeCount g, h⟩
        ((freeColumn g k).val, k.val) =
      .ok ⟨n, freeCount g, (basisEntries g k).foldl Grid.write h⟩ := by
  have marked := writeEntry_val h (freeColumn g k) k (q := 1) rfl
  have one : ∀ pivot ∈ pivotPlaces g, ∀ h : Grid n (freeCount g),
      writeEntry ⟨n, freeCount g, h⟩ pivot.2.val k.val
        ((Mat.get ⟨m, n, g⟩ pivot.1.val (freeColumn g k).val).map fun q => -q) =
      .ok ⟨n, freeCount g, h.write ((pivot.2, k), -g.entry pivot.1 (freeColumn g k))⟩ := by
    intro pivot _ h
    refine writeEntry_val h pivot.2 k ?_
    rw [Mat.get_val]
    rfl
  rw [basisColumn, marked, bind_ok, zipIdx_pivots echelon, basisEntries, List.foldl_cons,
    List.foldl_map]
  exact foldlM_map_ok (Mat.mk n (freeCount g)) _ one _

/-- **The basis** is written column by column. -/
theorem homogeneousBasis_eq :
    homogeneousBasis ⟨m, n, g⟩ ((Mat.leadingColumns ⟨m, n, g⟩).map Fin.val) =
      .ok ⟨n, freeCount g, reducedBasis g⟩ := by
  have count := congrArg List.length (zipIdx_free g)
  rw [List.length_zipIdx, List.length_map, List.length_finRange] at count
  rw [homogeneousBasis, zipIdx_free, count]
  refine foldlM_writeEntries (fun k _ h => basisColumn_eq echelon k h) ?_ ?_
  · intro k _ entry mem
    rcases List.mem_cons.mp mem with rfl | mem
    · rw [entry_basis_free k (freeColumn_free g k), if_pos rfl]
    · obtain ⟨pivot, isPivot, rfl⟩ := List.mem_map.mp mem
      exact entry_basis_leading echelon k (mem_pivotPlaces.mp isPivot)
  · intro c k unwritten
    obtain ⟨apart, rest⟩ := List.forall_mem_cons.mp (unwritten k (List.mem_finRange k))
    have free : ∀ i, g.leadingColumn? i ≠ some c := by
      intro i leading
      exact rest _ (List.mem_map_of_mem (mem_pivotPlaces.mpr leading)) rfl
    have other : c ≠ freeColumn g k := by
      rintro rfl
      exact apart rfl
    rw [entry_basis_free k free, if_neg other]
    simp

end Reduced

/-- Reading the values of a unique solution one by one does not change what is said about it. -/
theorem description_eq (info : SystemInfo) {particular : Mat} (homogeneous : Mat)
    (column : info.solutionType = .unique → ∃ x : Grid n 1, particular = ⟨n, 1, x⟩) :
    description info particular homogeneous = .ok (solutionText info particular homogeneous) := by
  by_cases unique : info.solutionType = .unique
  · obtain ⟨x, rfl⟩ := column unique
    have values : (List.range n).mapM (fun i : Nat => Mat.get ⟨n, 1, x⟩ i 0) =
        .ok (x.column 0).toList := by
      rw [range_eq, mapM_name_ok Fin.val fun i _ => Mat.get_val x i 0]
      congr 1
      apply List.ext_getElem <;> simp [Grid.column, Grid.entry, Grid.row]
    have same : x.columnGrid 0 = x := by
      refine Grid.ext_entries fun i z => ?_
      rw [Grid.entry_columnGrid, Subsingleton.elim z 0]
    rw [description, if_pos unique]
    show ((List.range n).mapM _ >>= _) = _
    rw [values, bind_ok]
    dsimp only
    rw [toColumn_column, same, pure_eq_ok]
  · have lines : ∀ x, solutionLines info.solutionType x homogeneous =
        solutionLines info.solutionType particular homogeneous := by
      intro x
      cases type : info.solutionType <;> first | rfl | exact absurd type unique
    rw [description, if_neg unique, pure_eq_ok, bind_ok]
    dsimp only
    rw [solutionText, lines, pure_eq_ok, solutionText]

section Solve

variable (a : Grid m n) (b : Grid m 1)

theorem solutionColumns_eq (type : SolutionType) :
    solutionColumns type ⟨m, n, reducedCoefficients a b⟩ ⟨m, 1, reducedRight a b⟩
        ((Mat.leadingColumns ⟨m, n, reducedCoefficients a b⟩).map Fin.val) =
      .ok (ExactAlgebra.solutionColumns type ⟨m, n, reducedCoefficients a b⟩
        ⟨m, 1, reducedRight a b⟩) := by
  have echelon := (isReducedRowEchelon_reducedCoefficients a b).isRowEchelon
  cases type with
  | unique =>
    rw [solutionColumns, particularSolution_eq echelon]
    rfl
  | infinite =>
    rw [solutionColumns, particularSolution_eq echelon, bind_ok, homogeneousBasis_eq echelon]
    rfl
  | none => rfl
  | undetermined => rfl

theorem solve_grids :
    solve ⟨m, n, a⟩ ⟨m, 1, b⟩ = (solveSystem ⟨m, n, a⟩ ⟨m, 1, b⟩).map Prod.fst := by
  have right_fits : checkRightSide ⟨m, n, a⟩ ⟨m, 1, b⟩ = .ok () := by
    simp [checkRightSide]
  have classified : systemInfo ⟨m, n, a⟩ (Mat.rank ⟨m, n, a⟩) (Mat.rank ⟨m, n + 1, a.beside b⟩) =
    ExactAlgebra.systemInfo ⟨m, n, a⟩ ⟨m, n + 1, a.beside b⟩ := rfl
  simp only [solve, solveSystem, right_fits, augment_eq, rank_eq, reducedEchelon_eq,
    leftPart_reducedEchelon, rightPart_reducedEchelon, pivotColumns_eq, bind_ok, classified]
  generalize ExactAlgebra.systemInfo ⟨m, n, a⟩ ⟨m, n + 1, a.beside b⟩ = info
  have written := solutionColumns_eq a b info.solutionType
  cases columns : ExactAlgebra.solutionColumns info.solutionType ⟨m, n, reducedCoefficients a b⟩
    ⟨m, 1, reducedRight a b⟩ with
  | mk particular homogeneous =>
    have column : info.solutionType = .unique → ∃ x : Grid n 1, particular = ⟨n, 1, x⟩ := by
      intro unique
      rw [unique] at columns
      exact ⟨_, (Prod.mk.inj columns).1.symm⟩
    rw [written, columns, bind_ok, description_eq info homogeneous column]
    rfl

end Solve

/-- **The solver by numbers** answers what the solver answers. -/
theorem solve_eq (a b : Mat) : solve a b = (solveSystem a b).map Prod.fst := by
  by_cases column : b.cols = 1
  · by_cases same : b.rows = a.rows
    · obtain ⟨k, n, g⟩ := a
      obtain ⟨m, z, h⟩ := b
      obtain rfl : z = 1 := column
      obtain rfl : m = k := same
      exact solve_grids g h
    · rw [solve, solveSystem, checkRightSide, if_neg (not_not_intro column), if_pos same]
      rfl
  · rw [solve, solveSystem, checkRightSide, if_pos column]
    rfl

/-! ## Sets of vectors -/

section Columns

variable {a : Grid m p} {b : Grid m q}

/-- **The weights for one column** are written into theirs; `result` is what the weights will be. -/
theorem writeWeights_eq {w result : Grid p q} {x : Grid p 1} {j : Fin q}
    (here : result.columnGrid j = x) (other : ∀ i k, k ≠ j → w.entry i k = result.entry i k) :
    writeWeights ⟨p, 1, x⟩ j.val ⟨p, q, w⟩ = .ok ⟨p, q, result⟩ := by
  subst here
  rw [writeWeights, range_eq]
  refine foldlM_writeEntry (fun i _ w =>
    writeEntry_val w i j (Mat.get_val (result.columnGrid j) i 0)) ?_ ?_
  · intro i _
    rw [Grid.entry_columnGrid]
  · intro i k unwritten
    refine other i k ?_
    rintro rfl
    exact unwritten i (List.mem_finRange i) rfl

variable {answer : Fin q → SystemSolution} {journal : Fin q → Journal} {result : Grid p q}

/-- **Column after column** the weights are found, as long as there are some. What is not in one of
the columns to come is already there. -/
theorem representFrom_eq
    (solved : ∀ j, solveSystem ⟨m, p, a⟩ ⟨m, 1, b.columnGrid j⟩ = .ok (answer j, journal j))
    (found : ∀ j, (answer j).isSolvable = true → (answer j).particular = ⟨p, 1, result.columnGrid j⟩)
    (js : List (Fin q)) (w : Grid p q) (done : ∀ i k, k ∉ js → w.entry i k = result.entry i k)
    (unique : Bool) :
    representFrom ⟨m, p, a⟩ ⟨m, q, b⟩ ⟨p, q, w⟩ unique (js.map Fin.val) =
      .ok (if ∀ j ∈ js, (answer j).isSolvable = true then
        ⟨true, unique && (js.map answer).all (·.isUnique), some ⟨p, q, result⟩⟩
      else ⟨false, false, none⟩) := by
  induction js generalizing w unique with
  | nil =>
    have whole : w = result := Grid.ext_entries fun i k => done i k List.not_mem_nil
    simp [representFrom, whole]
  | cons j rest ih =>
    have answered : solve ⟨m, p, a⟩ ⟨m, 1, b.columnGrid j⟩ = .ok (answer j) := by
      rw [solve_grids, solved]
      rfl
    rw [List.map_cons, representFrom, Mat.column_val, bind_ok, toColumn_column, answered, bind_ok]
    by_cases solvable : (answer j).isSolvable = true
    · -- only the column of `j` changes, and it becomes what it is going to be
      have written : writeWeights (answer j).particular j.val ⟨p, q, w⟩ = .ok ⟨p, q,
          Grid.ofEntries fun i k => if k = j then result.entry i k else w.entry i k⟩ := by
        rw [found j solvable]
        refine writeWeights_eq (Grid.ext_entries fun i z => ?_) fun i k apart => ?_
        · simp
        · simp [apart]
      rw [if_pos solvable, written, bind_ok, ih]
      · simp [solvable, Bool.and_assoc]
      · intro i k outside
        rw [Grid.entry_ofEntries]
        by_cases here : k = j
        · rw [if_pos here]
        · rw [if_neg here]
          exact done i k (by simp [here, outside])
    · rw [if_neg solvable, if_neg fun all => solvable (all j List.mem_cons_self)]
      rfl

/-- The weights that are put together from the solutions of all columns. -/
def weightsOf (p : Nat) (answer : Fin q → SystemSolution) : Grid p q :=
  Grid.ofEntries fun i j =>
    ((((List.finRange q).map answer).map fun s => s.particular.toLists.flatten).getD j.val
      []).getD i.val 0

theorem columnGrid_weightsOf {j : Fin q} {x : Grid p 1}
    (particular : (answer j).particular = ⟨p, 1, x⟩) : (weightsOf p answer).columnGrid j = x := by
  refine Grid.ext_entries fun i z => ?_
  rw [Subsingleton.elim z 0, Grid.entry_columnGrid, weightsOf, Grid.entry_ofEntries]
  simp [particular, Mat.flatten_toLists_column, Grid.column, Grid.entry, Grid.row]

end Columns

/-- **The weights** are found as before. -/
theorem represent_eq (a b : Mat) : represent a b = ExactAlgebra.represent a b := by
  by_cases same : a.rows = b.rows
  · obtain ⟨m, p, g⟩ := a
    obtain ⟨k, q, h⟩ := b
    obtain rfl : m = k := same
    choose answer journal solved answers using fun j => solveSystem_solves g (h.columnGrid j)
    have found : ∀ j, (answer j).isSolvable = true →
        (answer j).particular = ⟨p, 1, (weightsOf p answer).columnGrid j⟩ := by
      intro j solvable
      rcases answers j with solves | ⟨unsolvable, -⟩
      · obtain ⟨x, particular, -⟩ := solves.exists_particular
        rw [columnGrid_weightsOf particular, particular]
      · exact absurd (unsolvable.symm.trans solvable) Bool.false_ne_true
    have run := representFrom_eq solved found (List.finRange q) (Grid.zero p q)
      (fun _ k outside => absurd (List.mem_finRange k) outside) true
    rw [← range_eq] at run
    rw [represent, ExactAlgebra.represent, checkVectorSize, if_pos rfl, bind_ok, bind_ok, Mat.columns,
      solveColumns_eq solved, bind_ok]
    refine run.trans ?_
    split <;> rfl
  · rw [represent, ExactAlgebra.represent, checkVectorSize, if_neg same]
    rfl

/-- **Equal spaces** are told by ranks, as before. -/
theorem areEquivalent_eq (a b : Mat) : areEquivalent a b = ExactAlgebra.areEquivalent a b := by
  by_cases same : a.rows = b.rows
  · obtain ⟨m, p, g⟩ := a
    obtain ⟨k, q, h⟩ := b
    obtain rfl : m = k := same
    simp only [areEquivalent, ExactAlgebra.areEquivalent, augment_eq, rank_eq, bind_ok]
  · rw [areEquivalent, ExactAlgebra.areEquivalent, checkVectorSize, if_neg same]
    rfl

/-- **The comparison by numbers** answers what the comparison answers. -/
theorem compare_eq (a b : Mat) : compare a b = compareSpans a b := by
  rw [compare, compareSpans, represent_eq, represent_eq, areEquivalent_eq, union_eq]
  cases unionEchelon a b <;> rfl

end Numbered

end ExactAlgebra
