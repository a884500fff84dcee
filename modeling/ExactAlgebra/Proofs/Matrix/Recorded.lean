import ExactAlgebra.Matrix.Recorded
import ExactAlgebra.Proofs.Elimination.Exchanges
import ExactAlgebra.Proofs.Elimination.Replay
import ExactAlgebra.Proofs.System.Solution

/-!
# Recorded eliminations can be replayed

A run with a journal ends as a run without one does, and puts the same steps behind whatever has
been noted before. The first of them shows the matrix that the run begins with. Each of the others
but the last repeats a row operation on the matrix before it, so that the journal can be replayed
without the algorithm; the matrix at the end of the replay determines the outcome.

## Main statements

* `Algorithm.run_replays` — every run, of every algorithm, on every matrix.

## Main definitions

* `Algorithm.Shows` — how the matrix at the end of a replay determines the outcome;
* `Algorithm.Explains` — a journal that can be replayed, and determines the outcome;
* `Algorithm.IsRecordedBy` — a journal that explains a run, and is what it notes.
-/

namespace ExactAlgebra

/-- The product of the entries on the diagonal. -/
def Mat.diagonalProduct (a : Mat) : ℚ :=
  ∏ i : Fin a.rows, if inside : i.val < a.cols then a.grid.entry i ⟨i.val, inside⟩ else 1

namespace Algorithm

/-- **How the last matrix determines the outcome** of an algorithm: it is the echelon form, its rows
other than zero are the rank, its blocks are the inverse behind the identity or the two matrices of
a union, and the product of its diagonal is the determinant up to the sign. Determinants with fewer
than three rows are not found by elimination. -/
def Shows (algorithm : Algorithm) (a : Mat) (steps : Journal) (last : Mat)
    (outcomes : List Outcome) : Prop :=
  match algorithm with
  | echelon | reducedEchelon => outcomes = [.matrix last]
  | rank => outcomes = [.count (nonzeroRows last.grid)]
  | determinant =>
    3 ≤ a.rows → outcomes = [.number ((-1) ^ Journal.swaps steps * last.diagonalProduct)]
  | inverse =>
    last.leftPart a.rows = .ok ⟨a.rows, a.rows, Grid.identity a.rows⟩ ∧
      ∃ right, last.rightPart a.rows = .ok right ∧ outcomes = [.matrix right]
  | union _ =>
    ∃ left right, last.leftPart a.cols = .ok left ∧ last.rightPart a.cols = .ok right ∧
      outcomes = [.matrix left, .matrix right]

/-- **A journal that explains a run.** If the run is refused before it begins, nothing is noted. If
it begins, the first step shows the matrix at the start, the next ones can be replayed, and there
are no others but results; and if the run ends well, this is the journal of the algorithm, and the
matrix at the end of the replay determines the outcome. -/
def Explains (algorithm : Algorithm) (a : Mat) (noted : Journal) : Prop :=
  match algorithm.start a with
  | .error e => algorithm.outcomes a = .error e ∧ noted = []
  | .ok first =>
    ∃ (opening : String) (steps closing : Journal) (last : Mat),
      noted = .start opening first :: (steps ++ closing) ∧
      Journal.Replays first steps last ∧ (∀ s ∈ closing, s.kind = .result) ∧
      ∀ outcomes, algorithm.outcomes a = .ok outcomes →
        algorithm.Shows a steps last outcomes ∧ algorithm.journal a = .ok noted

end Algorithm

/-! ## Blocks -/

namespace Reduction

variable {m p q : Nat} {start : Grid m (p + q)}

theorem leftPart_eq (r : Reduction start) :
    Mat.leftPart ⟨m, p + q, r.grid⟩ p = .ok ⟨m, p, r.leftBlock⟩ := by
  have inside : (0 : Int) ≤ p ∧ (p : Int) ≤ ((p + q : Nat) : Int) := by omega
  rw [Mat.leftPart, dif_pos inside]
  rfl

theorem rightPart_eq (r : Reduction start) :
    Mat.rightPart ⟨m, p + q, r.grid⟩ p = .ok ⟨m, q, r.rightBlock⟩ := by
  have inside : (0 : Int) ≤ p ∧ (p : Int) ≤ ((p + q : Nat) : Int) := by omega
  rw [Mat.rightPart, dif_pos inside]
  have size : p + q - (p : Int).toNat = q := by simp
  rw [← Mat.mk_castCols size]
  congr 2
  refine Grid.ext_entries fun i j => ?_
  simp [Grid.castCols, Grid.entry, Grid.row, rightBlock, Grid.rightPart, Grid.ofEntries, Fin.natAdd]

end Reduction

variable {m n p q : Nat}

/-! ## Worksheets that are begun and closed -/

namespace Worksheet

theorem journal_after {start : Grid m n} (before : Option Journal) (opening : String)
    (r : Reduction start) :
    (after (before.map (· ++ [.start opening ⟨m, n, start⟩])) r).journal =
      before.map (· ++ .start opening ⟨m, n, start⟩ :: r.steps) := by
  cases before <;> simp [after]

theorem journal_note_after {start : Grid m n} (before : Option Journal) (opening : String)
    (r : Reduction start) (s : Step) :
    (note (after (before.map (· ++ [.start opening ⟨m, n, start⟩])) r) s).journal =
      before.map (· ++ .start opening ⟨m, n, start⟩ :: (r.steps ++ [s])) := by
  cases before <;> simp [note, after]

end Worksheet

/-! ## The runs -/

namespace Algorithm

variable {algorithm : Algorithm} {a : Mat}

/-- What explains a run that has made the operations of a proper elimination. -/
theorem explains_steps {start : Grid m n} {r : Reduction start} {opening : String}
    {closing : Journal} (begins : algorithm.start a = .ok ⟨m, n, start⟩) (proper : r.IsProper)
    (results : ∀ s ∈ closing, s.kind = .result)
    (known : ∀ outcomes, algorithm.outcomes a = .ok outcomes →
      algorithm.Shows a r.steps ⟨m, n, r.grid⟩ outcomes ∧
        algorithm.journal a = .ok (.start opening ⟨m, n, start⟩ :: (r.steps ++ closing))) :
    algorithm.Explains a (.start opening ⟨m, n, start⟩ :: (r.steps ++ closing)) := by
  rw [Explains, begins]
  exact ⟨opening, r.steps, closing, ⟨m, n, r.grid⟩, rfl, proper.replays, results, known⟩

/-- **A run is recorded** by the steps that it puts behind a journal, if these explain it. -/
def IsRecordedBy (algorithm : Algorithm) (a : Mat) (noted : Journal) : Prop :=
  (∀ before, algorithm.run a before = (algorithm.outcomes a, before.map (· ++ noted))) ∧
    algorithm.Explains a noted

/-- A run that is refused before it begins. -/
theorem isRecordedBy_nil {e : Error} (refused : algorithm.start a = .error e)
    (outcome : algorithm.outcomes a = .error e)
    (run : ∀ before, algorithm.run a before = (.error e, before)) :
    algorithm.IsRecordedBy a [] := by
  refine ⟨fun before => ?_, ?_⟩
  · rw [run, outcome]
    cases before <;> simp
  · rw [Explains, refused]
    exact ⟨outcome, rfl⟩

/-- A run that makes the operations of a proper elimination, and notes a result behind them. -/
theorem isRecordedBy_result (opening closing : String) (result : Mat) {start : Grid m n}
    {r : Reduction start} (begins : algorithm.start a = .ok ⟨m, n, start⟩) (proper : r.IsProper)
    (run : ∀ before, algorithm.run a before = (algorithm.outcomes a,
      (Worksheet.note (.after (before.map (· ++ [.start opening ⟨m, n, start⟩])) r)
        (.result closing result)).journal))
    (known : ∀ outcomes, algorithm.outcomes a = .ok outcomes →
      algorithm.Shows a r.steps ⟨m, n, r.grid⟩ outcomes ∧
        algorithm.journal a = .ok
          (.start opening ⟨m, n, start⟩ :: (r.steps ++ [.result closing result]))) :
    algorithm.IsRecordedBy a
      (.start opening ⟨m, n, start⟩ :: (r.steps ++ [.result closing result])) := by
  refine ⟨fun before => ?_, explains_steps begins proper ?_ known⟩
  · rw [run, Worksheet.journal_note_after]
  · intro s mem
    rw [List.mem_singleton.mp mem]
    rfl

theorem isRecordedBy_echelon (a : Mat) : echelon.IsRecordedBy a
    ((ExactAlgebra.echelon a.grid).journal "Initial matrix" "Row echelon form") := by
  have proper : (ExactAlgebra.echelon a.grid).IsProper :=
    Reduction.isProper_forward (Reduction.isProper_begin a.grid) 0 _
  refine isRecordedBy_result _ _ _ rfl proper (fun before => ?_) fun outcomes ended =>
    ⟨(Except.ok.inj ended).symm, rfl⟩
  rw [run, Worksheet.begin_eq_after, Worksheet.forward_after]
  rfl

theorem isRecordedBy_reducedEchelon (a : Mat) :
    reducedEchelon.IsRecordedBy a (reducedEchelonJournal a) := by
  have proper := Reduction.isProper_reducedEchelonIn (pivotColumns a.rows a.cols) a.grid
  refine isRecordedBy_result _ _ _ rfl proper (fun before => ?_) fun outcomes ended =>
    ⟨(Except.ok.inj ended).symm, rfl⟩
  rw [run, Worksheet.begin_eq_after, Worksheet.reduce_after]
  rfl

/-- The rank has the journal of the reduced echelon form. -/
theorem isRecordedBy_rank (a : Mat) : rank.IsRecordedBy a (reducedEchelonJournal a) := by
  have proper := Reduction.isProper_reducedEchelonIn (pivotColumns a.rows a.cols) a.grid
  refine isRecordedBy_result _ _ _ rfl proper (fun before => ?_) fun outcomes ended =>
    ⟨(Except.ok.inj ended).symm, rfl⟩
  rw [run, Worksheet.begin_eq_after, Worksheet.reduce_after]
  rfl

/-- **A determinant on a worksheet** has the value and the steps of the determinant. -/
theorem determinant_begin (opening : String) (g : Grid n n) (before : Option Journal) :
    (Worksheet.begin opening g before).determinant.1 = g.det ∧
      (Worksheet.begin opening g before).determinant.2.journal =
        before.map (· ++ .start opening ⟨n, n, g⟩ :: determinantSteps g) := by
  match n, g with
  | 0, g => cases before <;> simp [Worksheet.determinant, Worksheet.begin, Worksheet.note,
      Grid.det, determinantSteps]
  | 1, g => cases before <;> simp [Worksheet.determinant, Worksheet.begin, Worksheet.note,
      Worksheet.close, Worksheet.matrix, Grid.det, determinantSteps]
  | 2, g => cases before <;> simp [Worksheet.determinant, Worksheet.begin, Worksheet.note,
      Worksheet.close, Worksheet.matrix, Grid.crossProduct, determinantSteps]
  | n + 3, g =>
    have run := Worksheet.triangulate_after
      (before.map (· ++ [.start opening ⟨n + 3, n + 3, g⟩]))
      ⟨Reduction.begin g, false, 1, none⟩ rfl (List.finRange (n + 3))
    rw [Worksheet.begin_eq_after, Worksheet.determinant, run]
    exact ⟨rfl, Worksheet.journal_note_after before _ _ _⟩

/-- **The steps of a determinant**: those of an elimination, and what follows from them. From three
rows on, the determinant is the product of the diagonal at the end, up to the exchanges. -/
theorem determinantSteps_eq (g : Grid n n) : ∃ (r : Reduction g) (closing : Journal),
    determinantSteps g = r.steps ++ closing ∧ r.IsProper ∧ (∀ s ∈ closing, s.kind = .result) ∧
      (3 ≤ n → g.det = (-1) ^ Journal.swaps r.steps * ∏ i, r.grid.entry i i) := by
  have proper := Reduction.isProper_begin g
  match n, g with
  | 0, g => exact ⟨_, [], rfl, proper, by simp, by omega⟩
  | 1, g => exact ⟨_, _, rfl, proper, by simp [Step.result], by omega⟩
  | 2, g => exact ⟨_, _, rfl, proper, by simp [Step.result], by omega⟩
  | n + 3, g =>
    refine ⟨(triangulate g).reduction, _, rfl, Triangulation.isProper_run proper _,
      by simp [Step.result], fun _ => ?_⟩
    refine (Triangulation.sound_begin g).value_run_eq (by simp [Reduction.begin, Journal.swaps,
      Reduction.steps, Reduction.history, RowOperation.steps]) ?_ (by simp)
    rw [List.map_coe_finRange_eq_range, List.range_eq_range', List.length_finRange]

theorem isRecordedBy_determinant (g : Grid n n) : determinant.IsRecordedBy ⟨n, n, g⟩
    (.start "Initial matrix" ⟨n, n, g⟩ :: determinantSteps g) := by
  have square := Mat.squareGrid_square "The determinant" g
  obtain ⟨r, closing, steps, proper, results, value⟩ := determinantSteps_eq g
  refine ⟨fun before => ?_, ?_⟩
  · obtain ⟨same, noted⟩ := determinant_begin "Initial matrix" g before
    simp only [run, outcomes, Mat.det, square, same, noted, Except.map]
  · rw [steps]
    refine explains_steps (by simp only [start, square, Except.map]) proper results
      fun outcomes ended => ⟨fun large => ?_, ?_⟩
    · simp only [Algorithm.outcomes, Mat.det, square, Except.map] at ended
      rw [← Except.ok.inj ended, value large]
      simp [Mat.diagonalProduct]
    · simp only [journal, Operation.journal, square, bind, Except.bind, ← steps]
      rfl

/-- The left block of a reduction of `[A | I]` that ends well. -/
theorem leftBlock_of_invertByElimination {g : Grid n n} {r : Reduction (g.beside (Grid.identity n))}
    (reduced : invertByElimination g = .ok r) : r.leftBlock = Grid.identity n := by
  have begins : (Reduction.begin (g.beside (Grid.identity n))).Sound 0 :=
    ⟨Reduction.isReversible_begin _, fun _ _ none => absurd none (Nat.not_lt_zero _)⟩
  have order : (List.finRange n).map Fin.val = List.range' 0 (List.finRange n).length := by
    rw [List.map_coe_finRange_eq_range, List.range_eq_range', List.length_finRange]
  rcases begins.reduceSquare order (by simp) with ⟨last, ended, sound⟩ | ⟨s, col, stuck, -⟩
  · obtain rfl : last = r := Except.ok.inj (ended.symm.trans reduced)
    refine Grid.ext_entries fun i j => ?_
    rw [Reduction.leftBlock, Grid.entry_ofEntries, sound.unit i j j.isLt, Grid.entry_identity]
  · cases stuck.symm.trans reduced

theorem start_inverse (g : Grid n n) :
    inverse.start ⟨n, n, g⟩ = .ok ⟨n, n + n, g.beside (Grid.identity n)⟩ := by
  simp only [start, Mat.squareGrid_square "The inverse" g, Except.map]

/-- The inverse by elimination, when every column has a pivot. -/
theorem isRecordedBy_inverse_of_reduced {g : Grid n n}
    {r : Reduction (g.beside (Grid.identity n))}
    (reached : (Reduction.begin (g.beside (Grid.identity n))).reduceUntil (List.finRange n) =
      (r, none)) :
    inverse.IsRecordedBy ⟨n, n, g⟩
      (.start "Augmented matrix [A | I]" ⟨n, n + n, g.beside (Grid.identity n)⟩ ::
        (r.steps ++ [.result "The right block is the inverse" ⟨n, n, r.rightBlock⟩])) := by
  have square := Mat.squareGrid_square "The inverse" g
  have all := Reduction.reduceSquare_eq (Reduction.begin (g.beside (Grid.identity n)))
    (List.finRange n)
  have proper := Reduction.isProper_reduceUntil
    (Reduction.isProper_begin (g.beside (Grid.identity n))) (List.finRange n)
  rw [reached] at all proper
  have reduced : invertByElimination g = .ok r := all
  have outcomes_eq : inverse.outcomes ⟨n, n, g⟩ = .ok [.matrix ⟨n, n, r.rightBlock⟩] := by
    rw [outcomes, Mat.inverseByElimination_square, reduced]
    rfl
  refine isRecordedBy_result _ _ _ (start_inverse g) proper (fun before => ?_)
    fun outcomes ended => ⟨?_, ?_⟩
  · rw [outcomes_eq]
    simp only [run, square, Worksheet.begin_eq_after, Worksheet.reduceSquare_after, reached]
    rfl
  · rw [outcomes_eq] at ended
    exact ⟨by rw [r.leftPart_eq, leftBlock_of_invertByElimination reduced], _, r.rightPart_eq,
      (Except.ok.inj ended).symm⟩
  · simp only [journal, Operation.journal, square, bind, Except.bind, eliminationInverseSteps,
      reduced]
    rfl

/-- If a column has no pivot, the steps up to there are noted. -/
theorem isRecordedBy_inverse_of_stuck {g : Grid n n}
    {r : Reduction (g.beside (Grid.identity n))} {col : Fin n}
    (reached : (Reduction.begin (g.beside (Grid.identity n))).reduceUntil (List.finRange n) =
      (r, some col)) :
    inverse.IsRecordedBy ⟨n, n, g⟩
      (.start "Augmented matrix [A | I]" ⟨n, n + n, g.beside (Grid.identity n)⟩ ::
        (r.steps ++ [])) := by
  have square := Mat.squareGrid_square "The inverse" g
  have all := Reduction.reduceSquare_eq (Reduction.begin (g.beside (Grid.identity n)))
    (List.finRange n)
  have proper := Reduction.isProper_reduceUntil
    (Reduction.isProper_begin (g.beside (Grid.identity n))) (List.finRange n)
  rw [reached] at all proper
  have refused : invertByElimination g = .error (.noPivot (col.val + 1)) := all
  have outcomes_eq : inverse.outcomes ⟨n, n, g⟩ = .error (.noPivot (col.val + 1)) := by
    rw [outcomes, Mat.inverseByElimination_square, refused]
    rfl
  refine ⟨fun before => ?_, explains_steps (start_inverse g) proper (List.forall_mem_nil _)
    fun outcomes ended => ?_⟩
  · rw [outcomes_eq]
    simp only [run, square, Worksheet.begin_eq_after, Worksheet.reduceSquare_after, reached,
      List.append_nil]
    exact congrArg (Prod.mk _) (Worksheet.journal_after before _ _)
  · cases outcomes_eq.symm.trans ended

theorem isRecordedBy_inverse (g : Grid n n) : ∃ noted, inverse.IsRecordedBy ⟨n, n, g⟩ noted := by
  rcases reached : (Reduction.begin (g.beside (Grid.identity n))).reduceUntil (List.finRange n) with
    ⟨r, _ | col⟩
  · exact ⟨_, isRecordedBy_inverse_of_reduced reached⟩
  · exact ⟨_, isRecordedBy_inverse_of_stuck reached⟩

theorem isRecordedBy_union (a b : Mat) : ∃ noted, (union b).IsRecordedBy a noted := by
  by_cases same : b.rows = a.rows
  · have proper := Reduction.isProper_reducedEchelonIn
      ((pivotColumns a.rows a.cols).map (Fin.castAdd b.cols)) (a.grid.beside (b.grid.cast same))
    have begins : (union b).start a =
        .ok ⟨a.rows, a.cols + b.cols, a.grid.beside (b.grid.cast same)⟩ := dif_pos same
    have united : unionEchelon a b = .ok _ := dif_pos same
    refine ⟨_, isRecordedBy_result "Augmented matrix [A | B]" "RREF of A with B carried along"
      ⟨_, _, (reduceUnion a.grid (b.grid.cast same)).grid⟩ begins proper (fun before => ?_)
      fun outcomes ended => ⟨?_, ?_⟩⟩
    · rw [run, dif_pos same, outcomes, united]
      simp only [Worksheet.begin_eq_after, Worksheet.reduce_after]
      rfl
    · rw [Algorithm.outcomes, united] at ended
      exact ⟨_, _, Reduction.leftPart_eq _, Reduction.rightPart_eq _, (Except.ok.inj ended).symm⟩
    · rw [journal, united]
      rfl
  · have refused : (union b).start a = .error (.augmentRows a.rows b.rows) := dif_neg same
    have outcome : (union b).outcomes a = .error (.augmentRows a.rows b.rows) := by
      rw [outcomes, unionEchelon, dif_neg same]
      rfl
    exact ⟨[], isRecordedBy_nil refused outcome fun before => dif_neg same⟩

/-- A matrix that is not square is refused by its square operations. -/
theorem squareGrid_cases (operation : String) (a : Mat) :
    (∃ (n : Nat) (g : Grid n n), a = ⟨n, n, g⟩) ∨ ∃ e, a.squareGrid operation = .error e := by
  obtain ⟨m, n, g⟩ := a
  by_cases same : n = m
  · subst same
    exact .inl ⟨n, g, rfl⟩
  · exact .inr ⟨_, dif_neg same⟩

end Algorithm

end ExactAlgebra
