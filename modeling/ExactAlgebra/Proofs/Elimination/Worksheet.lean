import ExactAlgebra.Elimination.Worksheet
import Mathlib.Data.List.Basic

/-!
# Worksheets carry out eliminations

An elimination as a value lists the row operations that lead to its grid. Doing the same on a
worksheet changes the grid by the same operations, in the same order, and notes each of them once.
So a worksheet always shows some elimination: its grid is the one that the elimination has reached,
and what was noted are its steps. Every pass keeps this, whether or not there is a journal.

## Main statements

* `perform_after`, `clear_after` — single steps;
* `forward_after`, `backward_after`, `reduce_after` — the passes to echelon form;
* `triangulate_after`, `reduceSquare_after` — the passes for determinants and inverses.

## Main definitions

* `Worksheet.after` — the worksheet that shows an elimination;
* `Reduction.reduceUntil` — the reduction of a square block as far as there are pivots.
-/

namespace ExactAlgebra

variable {m n p : Nat} {start : Grid m n}

/-! ## Steps of one more operation -/

theorem RowOperation.steps_append (ops : List (RowOperation m)) (op : RowOperation m)
    (g : Grid m n) : RowOperation.steps (ops ++ [op]) g =
      RowOperation.steps ops g ++ [op.step (op.apply (RowOperation.applyAll ops g))] := by
  induction ops generalizing g with
  | nil => rfl
  | cons first rest ih =>
    rw [List.cons_append, RowOperation.steps, RowOperation.steps, ih, List.cons_append]
    rfl

/-- **One more operation is one more step.** -/
theorem Reduction.steps_perform (r : Reduction start) (op : RowOperation m) :
    (r.perform op).steps = r.steps ++ [op.step (op.apply r.grid)] := by
  show RowOperation.steps (op :: r.operations).reverse start = _
  rw [List.reverse_cons, RowOperation.steps_append, r.reached]
  rfl

namespace Worksheet

/-- **The worksheet that shows an elimination**: its grid, and its steps behind what was noted
before. -/
def after (before : Option Journal) (r : Reduction start) : Worksheet m n :=
  ⟨r.grid, before.map (· ++ r.steps)⟩

variable (before : Option Journal)

@[simp]
theorem grid_after (r : Reduction start) : (after before r).grid = r.grid := rfl

/-- Any grid shows the elimination that has not begun. -/
theorem after_begin (g : Grid m n) : after before (Reduction.begin g) = ⟨g, before⟩ := by
  cases before with
  | none => rfl
  | some noted =>
    show Worksheet.mk g (some (noted ++ [])) = _
    rw [List.append_nil]

/-- A worksheet to begin with shows the elimination that has not begun. -/
theorem begin_eq_after (opening : String) (g : Grid m n) :
    begin opening g before =
      after (before.map (· ++ [.start opening ⟨m, n, g⟩])) (Reduction.begin g) := by
  rw [after_begin]
  rfl

/-! ## Single steps -/

theorem perform_after (r : Reduction start) (op : RowOperation m) :
    (after before r).perform op = after before (r.perform op) := by
  cases before with
  | none => rfl
  | some noted =>
    rw [after, after, Reduction.steps_perform]
    show Worksheet.mk _ (some ((noted ++ r.steps) ++ _)) = ⟨_, some (noted ++ (r.steps ++ _))⟩
    rw [List.append_assoc]
    rfl

theorem exchange_after (r : Reduction start) (i j : Fin m) :
    (after before r).exchange i j = after before (r.exchange i j) := by
  rw [exchange, Reduction.exchange]
  split
  · rfl
  · exact perform_after before r _

theorem normalize_after (r : Reduction start) (row : Fin m) (col : Fin n) :
    (after before r).normalize row col = after before (r.normalize row col) := by
  rw [normalize, Reduction.normalize]
  show (if r.grid.entry row col = 1 then _ else _) = _
  split
  · rfl
  · exact perform_after before r _

theorem clear_after (r : Reduction start) (row : Fin m) (col : Fin n) (pivot : Rat)
    (others : List (Fin m)) :
    (after before r).clear row col pivot others = after before (r.clear row col pivot others) := by
  rw [clear, Reduction.clear]
  induction others generalizing r with
  | nil => rfl
  | cons i rest ih =>
    rw [List.foldl_cons, List.foldl_cons, ← ih]
    congr 1
    show (if r.grid.entry i col = 0 then _ else _) = _
    split
    · rfl
    · exact perform_after before r _

/-! ## Echelon forms -/

/-- **The forward pass** shows that of the elimination, and finds the same pivots. -/
theorem forward_after (r : Reduction start) (row : Nat) (cols : List (Fin n)) :
    (after before r).forward row cols =
      (after before (r.forward row cols).1, (r.forward row cols).2) := by
  induction cols generalizing r row with
  | nil => rfl
  | cons col rest ih =>
    rw [forward, Reduction.forward, grid_after]
    by_cases inside : row < m
    · rw [dif_pos inside, dif_pos inside]
      cases Reduction.findPivot? r.grid col row with
      | none => exact ih r row
      | some found => simp only [exchange_after, clear_after, grid_after, ih]
    · rw [dif_neg inside, dif_neg inside]

theorem backward_after (r : Reduction start) (pivots : List (Fin m × Fin n)) :
    (after before r).backward pivots = after before (r.backward pivots) := by
  induction pivots with
  | nil => rfl
  | cons pivot rest ih =>
    obtain ⟨row, col⟩ := pivot
    rw [backward, Reduction.backward, ih, normalize_after, clear_after]

/-- **Both passes** show those of the elimination. -/
theorem reduce_after (columns : List (Fin n)) (g : Grid m n) :
    (after before (Reduction.begin g)).reduce columns =
      after before (reducedEchelonIn columns g) := by
  rw [reduce, forward_after, reducedEchelonIn]
  exact backward_after before _ _

/-! ## Determinants -/

/-- The words for what a triangulation shows. -/
def conclusion {g : Grid n n} (t : Triangulation g) : String :=
  match t.stuck with
  | some col => "Column " ++ Text.natText (col.val + 1) ++ " has no pivot, so det = 0"
  | none => pivotProductText t.odd t.value

/-- **A triangulation on a worksheet** shows the one of the elimination, and tells its value. -/
theorem triangulate_after {g : Grid n n} (t : Triangulation g) (running : t.stuck = none)
    (cols : List (Fin n)) :
    (after before t.reduction).triangulate t.odd t.product cols =
      ((t.run cols).value,
        (after before (t.run cols).reduction).close (conclusion (t.run cols))) := by
  induction cols generalizing t with
  | nil =>
    simp only [triangulate, Triangulation.run, Triangulation.value, conclusion, running]
    rfl
  | cons col rest ih =>
    rw [triangulate, Triangulation.run, grid_after]
    cases search : Reduction.findPivot? t.reduction.grid col col.val with
    | none => rfl
    | some found =>
      simp only [exchange_after, clear_after, grid_after]
      rw [← ih]
      rfl

/-! ## Inverses -/

end Worksheet

namespace Reduction

/-- **The reduction of a square block as far as there are pivots**, and the column without one if it
stops there. -/
def reduceUntil {start : Grid n (n + p)} (r : Reduction start) :
    List (Fin n) → Reduction start × Option (Fin n)
  | [] => (r, none)
  | col :: rest =>
    match findPivot? r.grid (col.castAdd p) col.val with
    | none => (r, some col)
    | some found =>
      reduceUntil
        (((r.exchange col found).normalize col (col.castAdd p)).clear col (col.castAdd p) 1
          (otherRows col))
        rest

/-- A reduction that stops is refused. -/
theorem reduceSquare_eq {start : Grid n (n + p)} (r : Reduction start) (cols : List (Fin n)) :
    r.reduceSquare cols =
      match r.reduceUntil cols with
      | (last, none) => .ok last
      | (_, some col) => .error (.noPivot (col.val + 1)) := by
  induction cols generalizing r with
  | nil => rfl
  | cons col rest ih =>
    rw [reduceSquare, reduceUntil]
    cases findPivot? r.grid (col.castAdd p) col.val with
    | none => rfl
    | some found => exact ih _

end Reduction

namespace Worksheet

/-- **A reduction on a worksheet** shows the one of the elimination, as far as it goes. -/
theorem reduceSquare_after (before : Option Journal) {start : Grid n (n + p)} (r : Reduction start)
    (cols : List (Fin n)) :
    (after before r).reduceSquare cols =
      (after before (r.reduceUntil cols).1, (r.reduceUntil cols).2) := by
  induction cols generalizing r with
  | nil => rfl
  | cons col rest ih =>
    rw [reduceSquare, Reduction.reduceUntil, grid_after]
    cases Reduction.findPivot? r.grid (col.castAdd p) col.val with
    | none => rfl
    | some found => simp only [exchange_after, normalize_after, clear_after, ih]

end Worksheet

end ExactAlgebra
