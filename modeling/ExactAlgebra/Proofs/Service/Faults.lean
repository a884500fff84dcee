import ExactAlgebra.Proofs.Expression.Faults
import ExactAlgebra.Proofs.Numbered.Operation
import ExactAlgebra.Proofs.Numbered.System
import ExactAlgebra.Service.Basic

/-!
# Every fault of a request is reported

What is computed for a request fails only for what the person who sent it is told about: texts that
are no expressions, no equations or no matrices, rows of different lengths, shapes that do not fit
an operation, names that are unknown. No index is out of range. What is left is the limit on the
number of coefficients that can be listed.

## Main statements

* `reported_simplifyText`, `Poly.reported_factoredText`, `Equation.reported_solve`,
  `Trail.reported_methodSteps`, `Trail.reported_verify` — expressions and equations;
* `reported_or_limit`, `factorText_cases`, `ofText_cases` — computations that list the coefficients
  of a polynomial;
* `Mat.reported_parse`, `Mat.reported_ofCells`, `Vec.reported_parse` — matrices and vectors;
* `Numbered.reported_perform`, `Numbered.reported_solve`, `Numbered.reported_compare` — operations,
  systems and sets of vectors;
* `Service.reported_matrixAnswer`, `Service.reported_systemAnswer`,
  `Service.reported_comparisonAnswer` — the answers that are made from them.

## Main definitions

* `Error.isLimit` — the causes of failure that are limits;
* `expressionOf`, `solvableOf` — what has been read before coefficients are listed.
-/

namespace ExactAlgebra

/-! ## Expressions -/

theorem reported_checkInput (typed : String) : Reported (checkInput typed) :=
  .ite (fun _ => .error rfl) fun _ => .ite (fun _ => .error rfl) fun _ => .ok _

theorem reported_simplifyText (typed : String) : Reported (simplifyText typed) :=
  (reported_checkInput typed).bind fun s => (Expression.reported_parse s).bind fun _ => .pure _

namespace Poly

theorem reported_dense (p : Poly) : Reported p.dense := by
  refine .ite (fun _ => .error rfl) fun _ => .ite (fun _ => .error rfl) fun _ => ?_
  split <;> exact .ok _

theorem reported_factorCompletely (p : Poly) : Reported p.factorCompletely :=
  (reported_dense p).map _

theorem reported_factoredText (p : Poly) : Reported p.factoredText :=
  .ite (fun _ => .ok _) fun _ => (reported_dense p).map _

theorem reported_evaluate (p : Poly) (x : Rat) : Reported (p.evaluate x) :=
  (reported_dense p).map _

end Poly

/-! ## Equations -/

theorem reported_splitSides (s : String) : Reported (splitSides s) := by
  unfold splitSides
  dsimp only
  split
  · exact .ok _
  · exact .ite (fun _ => .error rfl) fun _ => .ok _
  · exact .error rfl

namespace Equation

theorem reported_parse (s : String) : Reported (parse s) :=
  (reported_splitSides _).bind fun (left, right) =>
    (Expression.reported_parse left).bind fun lhs => (Expression.reported_parse right).bind fun rhs =>
      (Poly.reported_sub lhs rhs).bind fun _ => .pure _

theorem reported_checkSolvable (p : Poly) : Reported (checkSolvable p) :=
  .ite (fun _ => .error rfl) fun _ => .ite (fun _ => .error rfl) fun _ => .ok ()

theorem reported_realRoots (a b c : Rat) : Reported (Dense.realRoots a b c) := by
  refine .ite (fun _ => .ok _) fun _ => ?_
  split
  · exact .ok _
  · exact (Radical.reported_make _ _).map _

theorem reported_solveDense (symbol : String) (coefficients : List Rat) :
    Reported (solveDense symbol coefficients) := by
  unfold solveDense
  split
  · exact .ok _
  · exact .ok _
  · exact .ok _
  · refine (reported_realRoots _ _ _).bind fun roots => ?_
    cases roots <;> exact .pure _
  · exact .ok _

theorem reported_solve (e : Equation) : Reported e.solve :=
  (reported_checkSolvable _).bind fun _ => (Poly.reported_dense _).bind fun coefficients =>
    reported_solveDense e.symbol coefficients

end Equation

namespace Trail

theorem reported_methodSteps (e : Equation) (s : Solution) : Reported (methodSteps e s) := by
  unfold methodSteps
  split
  · exact .ok _
  · refine (Poly.reported_dense _).bind fun coefficients => ?_
    split
    · exact .pure _
    · exact .error rfl
  · refine (Poly.reported_dense _).bind fun coefficients => ?_
    split
    · exact .pure _
    · exact .error rfl
  · exact (Poly.reported_factorCompletely _).bind fun _ =>
      (Poly.reported_factoredText _).bind fun _ => .pure _

theorem reported_verify (e : Equation) (roots : List Root) : Reported (verify e roots) := by
  induction roots with
  | nil => exact .ok _
  | cons root rest ih =>
    unfold verify
    split
    · exact ih
    · exact (Poly.reported_evaluate _ _).bind fun _ => ih.bind fun _ => .pure _

end Trail

/-! ## Limits -/

/-- Whether a cause of failure is that a list has no room. -/
def Error.isLimit (e : Error) : Bool :=
  e = .listTooLong || e = .noRoom

/-- A length is refused if and only if there is no room for it. -/
theorem checkLength_cases (n : Nat) :
    n < Error.roomLimit ∧ Error.checkLength n = .ok () ∨
      Error.roomLimit ≤ n ∧ ∃ e, Error.checkLength n = .error e ∧ e.isLimit = true := by
  unfold Error.checkLength
  by_cases large : Error.countLimit ≤ n
  · have room : Error.roomLimit ≤ Error.countLimit := by decide
    exact .inr ⟨Nat.le_trans room large, .listTooLong, if_pos large, rfl⟩
  · rw [if_neg large]
    by_cases room : Error.roomLimit ≤ n
    · exact .inr ⟨room, .noRoom, if_pos room, rfl⟩
    · exact .inl ⟨Nat.lt_of_not_le room, if_neg room⟩

/-- **A computation that lists the coefficients of a polynomial** fails for a limit exactly if there
are too many of them, and apart from that only for what is reported. -/
theorem reported_or_limit {α β : Type} {first : Except Error α} (listed : α → Poly)
    (rest : α → Except Error β) {run : Except Error β}
    (run_eq : run = first >>= fun a => (listed a).checkLength >>= fun _ => rest a)
    (reported : Reported first) (others : ∀ a, Reported (rest a)) :
    (∃ a e, first = .ok a ∧ Error.roomLimit ≤ (listed a).coefficientCount ∧ run = .error e ∧
        e.isLimit = true) ∨
      (∀ a, first = .ok a → (listed a).coefficientCount < Error.roomLimit) ∧ Reported run := by
  subst run_eq
  cases first with
  | error e =>
    refine .inr ⟨?_, .error (reported e rfl)⟩
    rintro _ ⟨⟩
  | ok a =>
    rcases checkLength_cases (listed a).coefficientCount with ⟨room, fits⟩ | ⟨large, e, refused, kind⟩
    · refine .inr ⟨?_, ?_⟩
      · rintro _ ⟨⟩
        exact room
      · rw [bind_ok, Poly.checkLength, fits, bind_ok]
        exact others a
    · refine .inl ⟨a, e, rfl, large, ?_, kind⟩
      rw [bind_ok, Poly.checkLength, refused, bind_error]

/-- The polynomial of a typed expression. -/
def expressionOf (typed : String) : Except Error Poly := do
  Expression.parse (← checkInput typed)

/-- A typed equation that can be solved. -/
def solvableOf (typed : String) : Except Error Equation := do
  let e ← Equation.parse (← checkInput typed)
  Equation.checkSolvable e.difference
  return e

/-- What is told about an equation that can be solved. -/
def trailOf (typed : String) (e : Equation) : Except Error Trail := do
  let solution ← e.solve
  let method ← Trail.methodSteps e solution
  let (verification, passed) ← Trail.verify e solution.roots
  return {
    typed := typed
    equation := e
    solution := solution
    steps := Trail.openingSteps e ++ method
    verification := verification
    passed := passed }

theorem reported_trailOf (typed : String) (e : Equation) : Reported (trailOf typed e) :=
  e.reported_solve.bind fun solution => (Trail.reported_methodSteps e solution).bind fun _ =>
    (Trail.reported_verify e solution.roots).bind fun _ => .pure _

theorem factorText_cases (typed : String) :
    (∃ p e, expressionOf typed = .ok p ∧ Error.roomLimit ≤ p.coefficientCount ∧
        factorText typed = .error e ∧ e.isLimit = true) ∨
      (∀ p, expressionOf typed = .ok p → p.coefficientCount < Error.roomLimit) ∧
        Reported (factorText typed) := by
  refine reported_or_limit (fun p => p) Poly.factoredText ?_ ?_ Poly.reported_factoredText
  · simp only [factorText, expressionOf, bind_assoc]
  · exact (reported_checkInput typed).bind Expression.reported_parse

theorem ofText_cases (typed : String) :
    (∃ e fault, solvableOf typed = .ok e ∧ Error.roomLimit ≤ e.difference.coefficientCount ∧
        Trail.ofText typed = .error fault ∧ fault.isLimit = true) ∨
      (∀ e, solvableOf typed = .ok e → e.difference.coefficientCount < Error.roomLimit) ∧
        Reported (Trail.ofText typed) := by
  refine reported_or_limit Equation.difference (trailOf typed) ?_ ?_ (reported_trailOf typed)
  · simp only [Trail.ofText, Equation.solveListed, solvableOf, trailOf, bind_assoc, pure_bind]
  · exact (reported_checkInput typed).bind fun s => (Equation.reported_parse s).bind fun e =>
      (Equation.reported_checkSolvable e.difference).bind fun _ => .pure e

/-! ## Matrices and vectors -/

theorem Cell.reported_value (cell : Cell) : Reported cell.value := by
  cases cell with
  | number q => exact .ok q
  | text s => exact Rational.reported_parse s
  | truth shown => exact .error rfl
  | inexact shown => exact .error rfl

theorem Cell.reported_values (cells : List Cell) : Reported (Cell.values cells) :=
  .mapM fun cell _ => cell.reported_value

namespace Mat

theorem reported_ofCells (rows : List (List Cell)) : Reported (ofCells rows) :=
  .bind (.mapM fun cells _ => Cell.reported_values cells) fun _ =>
    .ite (fun _ => .ok _) fun _ => .error rfl

theorem reported_parse (s : String) : Reported (parse s) := by
  unfold parse
  split
  · exact .error rfl
  · split
    · exact .error rfl
    · exact .error rfl
    · exact reported_ofCells _

theorem reported_squareGrid (operation : String) (a : Mat) : Reported (a.squareGrid operation) := by
  unfold squareGrid
  split
  · exact .ok _
  · exact .error rfl

end Mat

namespace Vec

theorem reported_ofCells (cells : List Cell) : Reported (ofCells cells) :=
  (Cell.reported_values cells).map _

/-- **A vector that is typed** is read from the only row or the only column of a matrix. -/
theorem reported_parse (s : String) : Reported (parse s) := by
  refine (Mat.reported_parse s).bind fun a => ?_
  obtain ⟨m, n, g⟩ := a
  refine .ite (fun row => ?_) fun _ => .ite (fun column => ?_) fun _ => .error rfl
  · obtain rfl : m = 1 := row
    have there : Mat.row ⟨1, n, g⟩ 0 = .ok _ := Mat.row_val g 0
    exact (Reported.of_eq_ok there).bind fun _ => .pure _
  · obtain rfl : n = 1 := column
    have there : Mat.column ⟨m, 1, g⟩ 0 = .ok _ := Mat.column_val g 0
    exact (Reported.of_eq_ok there).bind fun _ => .pure _

end Vec

/-! ## Operations -/

namespace Operation

theorem reported_ofName (strategy : String) : Reported (Strategy.ofName strategy) :=
  .ite (fun _ => .ok _) fun _ => .ite (fun _ => .ok _) fun _ => .error rfl

theorem reported_invertByElimination {n : Nat} (g : Grid n n) : Reported (invertByElimination g) := by
  rw [invertByElimination, Reduction.reduceSquare_eq]
  rcases (Reduction.begin (g.beside (Grid.identity n))).reduceUntil (List.finRange n) with
    ⟨last, _ | col⟩
  · exact .ok _
  · exact .error rfl

theorem reported_result (op : Operation) (strategy : String) (a : Mat) :
    Reported (op.result strategy a) := by
  cases op with
  | echelon | reducedEchelon | rank | transpose => exact .ok _
  | determinant => exact ((a.reported_squareGrid _).map _).map _
  | expansion =>
    exact ((a.reported_squareGrid _).bind fun _ =>
      (reported_ofName strategy).bind fun _ => .pure _).map _
  | inverse =>
    refine ((a.reported_squareGrid _).bind fun g => ?_).map _
    split
    · exact .pure _
    · exact .error rfl
  | inverseByElimination =>
    exact ((a.reported_squareGrid _).bind fun g =>
      (reported_invertByElimination g).bind fun _ => .pure _).map _
  | cofactors | adjugate => exact ((a.reported_squareGrid _).map _).map _

theorem reported_journal (op : Operation) (strategy : String) (a : Mat) :
    Reported (op.journal strategy a) := by
  cases op with
  | echelon | reducedEchelon | rank | transpose => exact .ok _
  | determinant => exact (a.reported_squareGrid _).bind fun _ => .pure _
  | expansion =>
    exact (a.reported_squareGrid _).bind fun _ => (reported_ofName strategy).bind fun _ => .pure _
  | inverse =>
    exact (a.reported_squareGrid _).bind fun _ => .ite (fun _ => .error rfl) fun _ => .pure _
  | inverseByElimination =>
    exact (a.reported_squareGrid _).bind fun g =>
      (reported_invertByElimination g).bind fun _ => .pure _
  | cofactors | adjugate => exact (a.reported_squareGrid _).map _

end Operation

namespace Numbered

/-- **No operation by numbers fails for anything else**, with a journal or without. -/
theorem reported_perform (op : Operation) (strategy : String) (a : Mat) (journal : Option Journal) :
    Reported (perform op strategy a journal) := by
  rw [perform_eq]
  exact (op.reported_result strategy a).bind fun _ => (op.reported_journal strategy a).bind fun _ =>
    .pure _

/-! ## Systems and sets of vectors -/

/-- A system is refused for the shape of its right side, or it is solved. -/
theorem solve_cases (a b : Mat) :
    (∃ e, solve a b = .error e ∧ e.isReported = true) ∨
      ∃ (s : SystemSolution) (n : Nat), solve a b = .ok s ∧
        (s.isSolvable = true → ∃ x : Grid n 1, s.particular = ⟨n, 1, x⟩) := by
  obtain ⟨m, z, h⟩ := b
  obtain ⟨k, n, g⟩ := a
  by_cases column : z = 1
  · subst column
    by_cases same : m = k
    · subst same
      obtain ⟨s, journal, solved, answered⟩ := solveSystem_solves g h
      refine .inr ⟨s, n, ?_, fun solvable => ?_⟩
      · rw [solve_grids, solved]
        rfl
      · rcases answered with solves | ⟨unsolvable, -⟩
        · obtain ⟨x, particular, -⟩ := solves.exists_particular
          exact ⟨x, particular⟩
        · exact absurd (unsolvable.symm.trans solvable) Bool.false_ne_true
    · refine .inl ⟨.systemRows k m, ?_, rfl⟩
      rw [solve, checkRightSide, if_neg (not_not_intro rfl), if_pos same]
      rfl
  · refine .inl ⟨.notColumn m z, ?_, rfl⟩
    rw [solve, checkRightSide, if_pos column]
    rfl

theorem reported_solve (a b : Mat) : Reported (solve a b) := by
  rcases solve_cases a b with ⟨e, refused, kind⟩ | ⟨s, n, solved, -⟩
  · rw [refused]
    exact .error kind
  · exact .of_eq_ok solved

theorem reported_compare (a b : Mat) : Reported (compare a b) := by
  by_cases same : a.rows = b.rows
  · obtain ⟨m, p, g⟩ := a
    obtain ⟨k, q, h⟩ := b
    obtain rfl : m = k := same
    obtain ⟨r, first, -⟩ := represent_answers g h
    obtain ⟨s, second, -⟩ := represent_answers h g
    obtain ⟨e, equivalent, -⟩ := ExactAlgebra.areEquivalent_eq g h
    rw [compare_eq, compareSpans, first, second, equivalent, unionEchelon, dif_pos rfl]
    exact .ok _
  · rw [compare, represent, checkVectorSize, if_neg same]
    exact .error rfl

end Numbered

/-! ## Answers -/

namespace Service

theorem reported_matrix (input : MatrixInput) : Reported input.matrix := by
  cases input with
  | typed s => exact Mat.reported_parse s
  | cells rows => exact Mat.reported_ofCells rows

theorem reported_vector (input : VectorInput) : Reported input.vector := by
  cases input with
  | typed s => exact Vec.reported_parse s
  | cells entries => exact Vec.reported_ofCells entries

theorem reported_matrixAnswer (op : Operation) (r : MatrixRequest) : Reported (matrixAnswer op r) :=
  (reported_matrix r.matrix).bind fun a =>
    (Numbered.reported_perform op r.strategy a _).bind fun _ => .pure _

/-- A column that is there is written down. -/
theorem columnJson_val {m n : Nat} (g : Grid m n) (j : Fin n) :
    ∃ written, columnJson ⟨m, n, g⟩ j.val = .ok written := by
  rw [columnJson, Mat.column_val]
  exact ⟨_, rfl⟩

/-- **A solution is written down** column by column. -/
theorem reported_systemJson {s : SystemSolution} {n : Nat}
    (column : s.isSolvable = true → ∃ x : Grid n 1, s.particular = ⟨n, 1, x⟩) :
    Reported (systemJson s) := by
  have basis : Reported ((List.range s.homogeneous.cols).mapM (columnJson s.homogeneous)) := by
    refine .mapM fun j mem => ?_
    obtain ⟨written, run⟩ := columnJson_val s.homogeneous.grid ⟨j, List.mem_range.mp mem⟩
    exact .of_eq_ok run
  unfold systemJson
  refine .ite (fun solvable => ?_) fun _ => basis.bind fun _ => .pure _
  obtain ⟨x, shape⟩ := column solvable
  obtain ⟨written, run⟩ := columnJson_val x 0
  rw [shape]
  exact (Reported.of_eq_ok run).bind fun _ => basis.bind fun _ => .pure _

theorem reported_systemAnswer (r : SystemRequest) : Reported (systemAnswer r) := by
  refine (reported_matrix r.coefficients).bind fun a => (reported_vector r.right).bind fun b => ?_
  rcases Numbered.solve_cases a b.toColumn with ⟨e, refused, kind⟩ | ⟨s, n, solved, column⟩
  · rw [refused]
    exact .error kind
  · rw [solved]
    exact reported_systemJson column

theorem reported_comparisonAnswer (r : PairRequest) : Reported (comparisonAnswer r) :=
  (reported_matrix r.first).bind fun a => (reported_matrix r.second).bind fun b =>
    (Numbered.reported_compare a b).bind fun _ => .pure _

end Service

end ExactAlgebra
