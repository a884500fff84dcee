import ExactAlgebra.Proofs.Elimination.Staircase
import ExactAlgebra.Proofs.Matrix.Recorded
import ExactAlgebra.Proofs.Numbered.Loop

/-!
# Eliminations ask for what is there

A draft that holds the matrix of a worksheet is asked only for rows and columns that the worksheet
has. So no step of an elimination by numbers is refused, and the draft goes through the same states
as the worksheet. What is refused is refused for a reason of its own: a matrix that is not square,
or that has no inverse.

## Main statements

* `Draft.swap_draft`, `Draft.clear_draft` and so on — single steps;
* `Draft.forward_draft`, `Draft.backward_draft`, `Draft.triangulate_draft`,
  `Draft.reduceSquare_draft` — the passes;
* `Numbered.echelon_eq`, `Numbered.rank_eq`, `Numbered.det_eq`, `Numbered.inverseByElimination_eq`,
  `Numbered.union_eq` — the algorithms.

## Main definitions

* `Worksheet.draft` — the draft that holds the matrix of a worksheet;
* `recorded` — a result with the steps that lead to it.
-/

namespace ExactAlgebra

variable {m n p : Nat}

/-- The draft that holds the matrix of a worksheet. -/
def Worksheet.draft (w : Worksheet m n) : Draft :=
  ⟨w.matrix, w.journal⟩

namespace Draft

variable (w : Worksheet m n)

/-! ## Single steps -/

theorem swap_draft (i j : Fin m) :
    w.draft.swap i.val j.val = .ok (w.perform (.swap i j)).draft := by
  have checked : Mat.swapRows ⟨m, n, w.grid⟩ i.val j.val = .ok (.swap i j) := by
    rw [Mat.swapRows, Mat.rowIndex_val, bind_ok, Mat.rowIndex_val]
    rfl
  exact congrArg (Except.map w.draft.perform) checked

theorem scale_draft (i : Fin m) {q : ℚ} (nonzero : q ≠ 0) :
    w.draft.scale i.val q = .ok (w.perform (.scale i q)).draft := by
  have checked : Mat.scaleRow ⟨m, n, w.grid⟩ i.val (.number q) = .ok (.scale i q) := by
    rw [Mat.scaleRow, Cell.value, bind_ok, if_neg nonzero, Mat.rowIndex_val]
    rfl
  exact congrArg (Except.map w.draft.perform) checked

theorem add_draft (i j : Fin m) (q : ℚ) :
    w.draft.add i.val j.val q = .ok (w.perform (.add i j q)).draft := by
  have checked : Mat.addScaledRow ⟨m, n, w.grid⟩ i.val j.val (.number q) = .ok (.add i j q) := by
    rw [Mat.addScaledRow, Cell.value, bind_ok, Mat.rowIndex_val, bind_ok,
      Mat.rowIndex_val]
    rfl
  exact congrArg (Except.map w.draft.perform) checked

/-- An entry of a worksheet. -/
theorem get_draft (i : Fin m) (j : Fin n) :
    w.draft.matrix.get i.val j.val = .ok (w.grid.entry i j) :=
  Mat.get_val w.grid i j

theorem findPivot?_draft (col : Fin n) (first : Nat) :
    w.draft.findPivot? col.val first =
      .ok ((Reduction.findPivot? w.grid col first).map Fin.val) := by
  have tested : ∀ i ∈ (List.finRange m).filter (first ≤ ·.val),
      (do return decide ((← w.draft.matrix.get (i.val : Nat) col.val) ≠ 0)) =
        (.ok (decide (w.grid.entry i col ≠ 0)) : Except Error Bool) := by
    intro i _
    rw [get_draft]
    rfl
  rw [findPivot?, Reduction.findPivot?]
  show List.findM? _ (between first m) = _
  rw [between_eq, findM?_map_ok Fin.val tested, List.find?_filter]
  simp

theorem exchange_draft (i j : Fin m) :
    w.draft.exchange i.val j.val = .ok (w.exchange i j).draft := by
  rw [exchange, Worksheet.exchange]
  by_cases same : i = j
  · rw [if_pos same, if_pos (congrArg Fin.val same)]
  · rw [if_neg same, if_neg (Fin.val_ne_of_ne same), swap_draft]

/-- A pivot is scaled by its inverse, which is not zero. -/
theorem normalize_draft (i : Fin m) (j : Fin n) (nonzero : w.grid.entry i j ≠ 0) :
    w.draft.normalize i.val j.val = .ok (w.normalize i j).draft := by
  rw [normalize, Worksheet.normalize, get_draft, bind_ok]
  split
  · rfl
  · exact scale_draft w i (one_div_ne_zero nonzero)

theorem clear_draft (row : Fin m) (col : Fin n) (pivot : ℚ) {others : List Nat}
    {rows : List (Fin m)} (numbers : others = rows.map Fin.val) :
    w.draft.clear row.val col.val pivot others = .ok (w.clear row col pivot rows).draft := by
  rw [clear, Worksheet.clear, numbers]
  refine foldlM_map_ok Worksheet.draft Fin.val (fun i _ w => ?_) w
  rw [clearEntry, get_draft, bind_ok]
  split
  · rfl
  · exact add_draft w i row _

/-- **A pivot is brought to its row** and its column is cleared below, as on the worksheet. -/
theorem clearBelow_draft (row found : Fin m) (col : Fin n) :
    w.draft.clearBelow row.val found.val col.val =
      .ok ((w.exchange row found).grid.entry row col,
        ((w.exchange row found).clear row col ((w.exchange row found).grid.entry row col)
          (Reduction.rowsBelow row)).draft) := by
  rw [clearBelow, exchange_draft, bind_ok, get_draft, bind_ok]
  show ((w.exchange row found).draft.clear row.val col.val _ (between (row.val + 1) m) >>= _) = _
  rw [clear_draft (w.exchange row found) row col _ (between_eq (row.val + 1) m)]
  rfl

/-! ## Echelon forms -/

/-- **The forward pass** goes through the states of the worksheet, and finds the same pivots. -/
theorem forward_draft (row : Nat) (cols : List (Fin n)) :
    w.draft.forward row (cols.map Fin.val) =
      .ok ((w.forward row cols).1.draft, (w.forward row cols).2.map fun pivot => pivot.2.val) := by
  induction cols generalizing w row with
  | nil => rfl
  | cons col rest ih =>
    rw [List.map_cons, forward, Worksheet.forward, findPivot?_draft, bind_ok]
    by_cases inside : row < m
    · rw [dif_pos inside, if_neg (not_le.mpr inside : ¬ w.draft.matrix.rows ≤ row)]
      cases Reduction.findPivot? w.grid col row with
      | none => exact ih w row
      | some found =>
        have cleared := clearBelow_draft w ⟨row, inside⟩ found col
        simp only [Option.map_some, cleared, bind_ok, ih]
        rfl
    · rw [dif_neg inside, if_pos (not_lt.mp inside : w.draft.matrix.rows ≤ row)]
      rfl

section Backward

variable {start : Grid m n} {r : Reduction start} {before : Option Journal} {row : Nat}
  {cols : List (Fin n)} {pivots : List (Fin m × Fin n)}

/-- **The backward pass** goes through the states of the worksheet, as long as the column of each
pivot is found at the place of its row. No pivot is zero when its row is scaled. -/
theorem foldrM_backwardStep (stairs : Staircase r.grid row cols pivots) {columns : List Nat}
    (found : ∀ pivot ∈ pivots, columns[pivot.1.val]? = some pivot.2.val) :
    (pivots.map fun pivot => pivot.1.val).foldrM (backwardStep columns)
        (Worksheet.after before r).draft =
      .ok ((Worksheet.after before r).backward pivots).draft := by
  induction stairs with
  | nil => rfl
  | skip _ _ ih => exact ih found
  | @pivot top col rest pivots nonzero zero tail ih =>
    obtain ⟨here, there⟩ := List.forall_mem_cons.mp found
    have still : ((Worksheet.after before r).backward pivots).grid.entry top col ≠ 0 := by
      rw [Worksheet.backward_after]
      exact Reduction.entry_backward_ne_zero tail nonzero zero
    rw [List.map_cons, List.foldrM_cons, ih there, bind_ok, backwardStep, memberAt_ok here, bind_ok,
      normalize_draft _ top col still, bind_ok, clear_draft _ top col 1 (range_val top)]
    rfl

/-- The pivots of a staircase stand in one row after another. -/
theorem rows_of_staircase {g : Grid m n} (stairs : Staircase g row cols pivots) :
    pivots.map (fun pivot => pivot.1.val) = List.range' row pivots.length := by
  induction stairs with
  | nil => rfl
  | skip _ _ ih => exact ih
  | pivot _ _ _ ih => rw [List.map_cons, ih, List.length_cons, List.range'_succ]

/-- **Both passes** go through the states of the worksheet. -/
theorem reduce_draft (cols : List (Fin n)) :
    (Worksheet.after before r).draft.reduce (cols.map Fin.val) =
      .ok ((Worksheet.after before r).reduce cols).draft := by
  have stairs := r.forward_staircase 0 cols
  have rows := rows_of_staircase stairs
  have found : ∀ pivot ∈ (r.forward 0 cols).2,
      ((r.forward 0 cols).2.map fun pivot => pivot.2.val)[pivot.1.val]? = some pivot.2.val := by
    intro pivot mem
    obtain ⟨k, inside, rfl⟩ := List.mem_iff_getElem.mp mem
    have place : (r.forward 0 cols).2[k].1.val = k := by
      have same := List.getElem_of_eq rows (by simpa using inside)
      simpa using same
    rw [place, List.getElem?_map, List.getElem?_eq_getElem inside]
    rfl
  rw [reduce, forward_draft, bind_ok, Worksheet.reduce, Worksheet.forward_after]
  show List.foldrM _ _ (List.range (List.length _)) = _
  rw [List.length_map, List.range_eq_range', ← rows]
  exact foldrM_backwardStep stairs found

end Backward

/-! ## Determinants -/

/-- **A triangulation** goes through the states of the worksheet, and tells the same value. -/
theorem triangulate_draft (w : Worksheet n n) (odd : Bool) (product : ℚ) (cols : List (Fin n)) :
    w.draft.triangulate odd product (cols.map Fin.val) =
      .ok ((w.triangulate odd product cols).1, (w.triangulate odd product cols).2.draft) := by
  induction cols generalizing w odd product with
  | nil => rfl
  | cons col rest ih =>
    rw [List.map_cons, triangulate, Worksheet.triangulate, findPivot?_draft, bind_ok]
    cases Reduction.findPivot? w.grid col col.val with
    | none => rfl
    | some found =>
      simp only [Option.map_some, clearBelow_draft, bind_ok, ih, Fin.val_inj]

/-- **The determinant** goes through the states of the worksheet. -/
theorem determinant_draft (w : Worksheet n n) :
    w.draft.determinant = .ok (w.determinant.1, w.determinant.2.draft) := by
  match n, w with
  | 0, w => rfl
  | 1, w =>
    have value : w.draft.matrix.get 0 0 = .ok (w.grid.entry 0 0) := get_draft w 0 0
    show (w.draft.matrix.get 0 0 >>= _) = _
    rw [value]
    rfl
  | 2, w =>
    obtain ⟨a, b, c, d⟩ := Mat.get_two w.grid
    show (Mat.get ⟨2, 2, w.grid⟩ 0 0 >>= fun a => Mat.get ⟨2, 2, w.grid⟩ 0 1 >>= fun b =>
      Mat.get ⟨2, 2, w.grid⟩ 1 0 >>= fun c => Mat.get ⟨2, 2, w.grid⟩ 1 1 >>= _) = _
    rw [a, bind_ok, b, bind_ok, c, bind_ok, d]
    rfl
  | n + 3, w =>
    show w.draft.triangulate false 1 (List.range (n + 3)) = _
    rw [range_eq, triangulate_draft]
    rfl

/-! ## Inverses -/

/-- A pivot that was found is still not zero in its new row. -/
theorem entry_exchange_ne_zero (w : Worksheet m n) (i : Fin m) {j : Fin m} {col : Fin n}
    (nonzero : w.grid.entry j col ≠ 0) : (w.exchange i j).grid.entry i col ≠ 0 := by
  have same : (w.exchange i j).grid = ((Reduction.begin w.grid).exchange i j).grid := by
    rw [Worksheet.exchange, Reduction.exchange]
    split <;> rfl
  rw [same, Reduction.entry_exchange, Equiv.swap_apply_left]
  exact nonzero

theorem otherRows_eq (row : Fin n) :
    (List.range n).filter (· ≠ row.val) = (Reduction.otherRows row).map Fin.val := by
  rw [range_eq, List.filter_map]
  congr 1
  refine List.filter_congr fun i _ => ?_
  simp [Fin.val_inj]

/-- **The reduction of a square block** goes through the states of the worksheet, and stops at the
same column. -/
theorem reduceSquare_draft (w : Worksheet n (n + p)) (cols : List (Fin n)) :
    w.draft.reduceSquare (cols.map Fin.val) =
      match w.reduceSquare cols with
      | (last, none) => .ok last.draft
      | (_, some col) => .error (.noPivot (col.val + 1)) := by
  induction cols generalizing w with
  | nil => rfl
  | cons col rest ih =>
    have search := findPivot?_draft w (col.castAdd p) col.val
    rw [Fin.val_castAdd] at search
    rw [List.map_cons, reduceSquare, Worksheet.reduceSquare, search, bind_ok]
    cases found : Reduction.findPivot? w.grid (col.castAdd p) col.val with
    | none => rfl
    | some row =>
      have nonzero := entry_exchange_ne_zero w col (Reduction.findPivot?_eq_some found).2
      have exchanged := exchange_draft w col row
      have normalized := normalize_draft (w.exchange col row) col (col.castAdd p) nonzero
      have cleared := clear_draft ((w.exchange col row).normalize col (col.castAdd p)) col
        (col.castAdd p) 1 (otherRows_eq col)
      rw [Fin.val_castAdd] at normalized cleared
      simp only [Option.map_some]
      rw [exchanged, bind_ok, normalized, bind_ok]
      show (Draft.clear _ col.val col.val 1 ((List.range n).filter (· ≠ col.val)) >>= _) = _
      rw [cleared, bind_ok, ih]

/-! ## Drafts without rows -/

/-- Without rows no column is looked at. -/
theorem forward_of_no_rows (w : Worksheet m n) (cols : List (Fin n)) :
    w.draft.forward 0 (cols.map Fin.val) =
      w.draft.forward 0 ((if m = 0 then [] else cols).map Fin.val) := by
  by_cases none : m = 0
  · rw [if_pos none]
    cases cols with
    | nil => rfl
    | cons col rest =>
      rw [List.map_cons, forward, if_pos (Nat.le_of_eq none : w.draft.matrix.rows ≤ 0)]
      rfl
  · rw [if_neg none]

end Draft

/-- **A result with the steps that lead to it**, which are put behind those noted before. -/
def recorded {α : Type} (before : Option Journal) (result : Except Error α)
    (steps : Except Error Journal) : Except Error (α × Option Journal) := do
  let value ← result
  let steps ← steps
  return (value, before.map (· ++ steps))

namespace Numbered

/-! ## Algorithms -/

/-- A matrix that is square, or the refusal of one that is not. -/
theorem square_cases (operation : String) (a : Mat) :
    (∃ (n : Nat) (g : Grid n n), a = ⟨n, n, g⟩) ∨
      a.checkSquare operation = .error (.notSquare operation a.rows a.cols) ∧
        a.squareGrid operation = .error (.notSquare operation a.rows a.cols) := by
  obtain ⟨m, n, g⟩ := a
  by_cases same : n = m
  · subst same
    exact .inl ⟨n, g, rfl⟩
  · refine .inr ⟨if_neg ?_, dif_neg same⟩
    simpa [Mat.isSquare] using Ne.symm same

theorem start_eq (opening : String) (g : Grid m n) (before : Option Journal) :
    Draft.start opening ⟨m, n, g⟩ before =
      (Worksheet.after (before.map (· ++ [.start opening ⟨m, n, g⟩])) (Reduction.begin g)).draft := by
  rw [← Worksheet.begin_eq_after]
  rfl

/-- Both passes on a draft that is begun. -/
theorem reduce_start (opening : String) (g : Grid m n) (before : Option Journal)
    (cols : List (Fin n)) :
    (Draft.start opening ⟨m, n, g⟩ before).reduce (cols.map Fin.val) =
      .ok (Worksheet.after (before.map (· ++ [.start opening ⟨m, n, g⟩]))
        (reducedEchelonIn (if m = 0 then [] else cols) g)).draft := by
  rw [start_eq, Draft.reduce, Draft.forward_of_no_rows, ← Draft.reduce, Draft.reduce_draft,
    Worksheet.reduce_after]

theorem echelon_eq (strategy : String) (a : Mat) (before : Option Journal) :
    echelon a before = recorded before (.ok a.echelon) (Operation.echelon.journal strategy a) := by
  obtain ⟨m, n, g⟩ := a
  rw [echelon, start_eq, range_eq, Draft.forward_of_no_rows, Draft.forward_draft,
    Worksheet.forward_after]
  exact congrArg (fun journal => Except.ok (_, journal))
    (Worksheet.journal_note_after before "Initial matrix" (ExactAlgebra.echelon g) _)

theorem reducedEchelon_eq (a : Mat) (before : Option Journal) :
    reducedEchelon a before =
      .ok (a.reducedEchelon, before.map (· ++ reducedEchelonJournal a)) := by
  obtain ⟨m, n, g⟩ := a
  rw [reducedEchelon, range_eq, reduce_start]
  exact congrArg (fun journal => Except.ok (_, journal))
    (Worksheet.journal_note_after before "Initial matrix" (ExactAlgebra.reducedEchelon g) _)

/-- Rows that are counted one after another. -/
theorem foldl_count (g : Grid m n) (rows : List (Fin m)) (count : Nat) :
    rows.foldl (fun count i => if g.isZeroRow i then count else count + 1) count =
      count + (rows.filter fun i => ! g.isZeroRow i).length := by
  induction rows generalizing count with
  | nil => rfl
  | cons i rest ih =>
    rw [List.foldl_cons, ih]
    by_cases zero : g.isZeroRow i = true
    · simp [zero]
    · simp [zero, Nat.add_assoc, Nat.add_comm 1]

/-- **The rows that are not zero** are counted. -/
theorem foldlM_countRow (g : Grid m n) :
    (List.range m).foldlM (countRow ⟨m, n, g⟩) 0 = .ok (nonzeroRows g) := by
  have one : ∀ i ∈ List.finRange m, ∀ count, countRow ⟨m, n, g⟩ count i.val =
      .ok (if g.isZeroRow i then count else count + 1) := by
    intro i _ count
    rw [countRow, Mat.isZeroRow_val]
    rfl
  rw [range_eq]
  refine (foldlM_map_ok (fun count => count) Fin.val one 0).trans ?_
  rw [foldl_count, Nat.zero_add, nonzeroRows]

theorem rank_eq (a : Mat) (before : Option Journal) :
    rank a before = .ok (a.rank, before.map (· ++ reducedEchelonJournal a)) := by
  rw [rank, reducedEchelon_eq, bind_ok]
  show ((List.range a.rows).foldlM (countRow a.reducedEchelon) 0 >>= _) = _
  rw [Mat.reducedEchelon, foldlM_countRow]
  rfl

theorem det_eq (g : Grid n n) (before : Option Journal) :
    det ⟨n, n, g⟩ before = .ok (g.det,
      before.map (· ++ .start "Initial matrix" ⟨n, n, g⟩ :: determinantSteps g)) := by
  obtain ⟨value, steps⟩ := Algorithm.determinant_begin "Initial matrix" g before
  have started : Draft.start "Initial matrix" ⟨n, n, g⟩ before =
      (Worksheet.begin "Initial matrix" g before).draft := rfl
  rw [det, Mat.checkSquare_self, bind_ok, started, Draft.determinant_draft, bind_ok, ← value, ← steps]
  rfl

theorem inverseByElimination_eq (g : Grid n n) (before : Option Journal) :
    inverseByElimination ⟨n, n, g⟩ before =
      recorded before (Mat.inverseByElimination ⟨n, n, g⟩) (eliminationInverseSteps g) := by
  rw [inverseByElimination, Mat.checkSquare_self, bind_ok, augment_eq, bind_ok, start_eq, range_eq,
    Draft.reduceSquare_draft, Worksheet.reduceSquare_after, Mat.inverseByElimination_square,
    eliminationInverseSteps, invertByElimination, Reduction.reduceSquare_eq]
  rcases (Reduction.begin (g.beside (Grid.identity n))).reduceUntil (List.finRange n) with
    ⟨last, _ | col⟩
  · show (Mat.rightPart ⟨n, n + n, last.grid⟩ n >>= _) = _
    rw [last.rightPart_eq, bind_ok]
    exact congrArg (fun journal => Except.ok (_, journal))
      (Worksheet.journal_note_after before "Augmented matrix [A | I]" last _)
  · rfl

theorem union_eq (a b : Mat) (before : Option Journal) :
    union a b before = (unionEchelon a b).map fun (left, right, steps) =>
      ((left, right), before.map (· ++ steps)) := by
  by_cases same : b.rows = a.rows
  · obtain ⟨rows, p, g⟩ := a
    obtain ⟨m, q, h⟩ := b
    obtain rfl : m = rows := same
    have columns : List.range p = ((List.finRange p).map (Fin.castAdd q)).map Fin.val := by
      rw [range_eq, List.map_map]
      rfl
    have pivots : (if m = 0 then [] else (List.finRange p).map (Fin.castAdd q)) =
        (pivotColumns m p).map (Fin.castAdd q) := by
      rw [pivotColumns, apply_ite (List.map (Fin.castAdd q)), List.map_nil]
    rw [union, augment_eq, bind_ok, columns, reduce_start, pivots, bind_ok, unionEchelon, dif_pos rfl]
    show (Mat.leftPart ⟨m, p + q, (reduceUnion g h).grid⟩ p >>= fun left =>
      Mat.rightPart ⟨m, p + q, (reduceUnion g h).grid⟩ p >>= fun right => .ok ((left, right), _)) = _
    rw [Reduction.leftPart_eq, bind_ok, Reduction.rightPart_eq, bind_ok]
    exact congrArg (fun journal => Except.ok (_, journal))
      (Worksheet.journal_note_after before "Augmented matrix [A | B]" (reduceUnion g h) _)
  · rw [union, Mat.augment, dif_neg same, unionEchelon, dif_neg same]
    rfl

end Numbered

end ExactAlgebra
