import ExactAlgebra.Proofs.Elimination.Inverse
import ExactAlgebra.Proofs.Elimination.Staircase
import ExactAlgebra.Proofs.Elimination.Worksheet

/-!
# Journals that can be replayed

A journal can be replayed if each of its steps repeats a row operation: the operation with the rows
and the factor that the step tells leads from the matrix of the step before to its own. This is so
for the steps of every elimination whose operations are proper ones, which take two different rows
where they take two, and a factor other than zero where they have one. The passes make no others.

## Main statements

* `Reduction.IsProper.replays` — the steps of a proper elimination can be replayed;
* `Reduction.isProper_forward`, `Reduction.isProper_backward`, `Reduction.isProper_reduceUntil`,
  `Triangulation.isProper_run` — the passes make proper operations.

## Main definitions

* `Step.Repeats`, `Journal.Replays` — a step, and a journal, that repeats row operations;
* `RowOperation.IsProper`, `Reduction.IsProper` — operations that do something.
-/

namespace ExactAlgebra

/-! ## Steps that repeat an operation -/

/-- **A step that repeats a row operation** on the matrix before it: the checked operation with the
rows and the factor of the step accepts them, and leads to the matrix of the step. -/
inductive Step.Repeats (before : Mat) : Step → Prop where
  | swap {description : String} {i j : Nat} {op : RowOperation before.rows} (apart : i ≠ j)
      (checked : before.swapRows i j = .ok op) :
      Repeats before
        ⟨.swapRows, description, before.operate op, .operation i (some j) none⟩
  | scale {description : String} {i : Nat} {q : ℚ} {op : RowOperation before.rows}
      (nonzero : q ≠ 0) (checked : before.scaleRow i (.number q) = .ok op) :
      Repeats before
        ⟨.scaleRow, description, before.operate op, .operation i none (some q)⟩
  | add {description : String} {i j : Nat} {q : ℚ} {op : RowOperation before.rows} (apart : i ≠ j)
      (nonzero : q ≠ 0) (checked : before.addScaledRow i j (.number q) = .ok op) :
      Repeats before
        ⟨.addScaledRow, description, before.operate op, .operation i (some j) (some q)⟩

/-- **A journal that can be replayed** from one matrix to another. -/
inductive Journal.Replays : Mat → Journal → Mat → Prop where
  | nil {a : Mat} : Replays a [] a
  | cons {a last : Mat} {s : Step} {rest : Journal} (first : s.Repeats a)
      (more : Replays s.matrix rest last) : Replays a (s :: rest) last

variable {m n p : Nat}

namespace RowOperation

/-- **A proper operation**: two different rows, or a factor other than zero, or both. -/
def IsProper : RowOperation m → Prop
  | swap first second => first ≠ second
  | scale _ factor => factor ≠ 0
  | add target source factor => target ≠ source ∧ factor ≠ 0

/-- **The step of a proper operation** repeats it. -/
theorem repeats_step {op : RowOperation m} (proper : op.IsProper) (g : Grid m n) :
    (op.step (op.apply g)).Repeats ⟨m, n, g⟩ := by
  have row (i : Fin m) : Mat.rowIndex ⟨m, n, g⟩ (i.val : Int) = .ok i := Mat.rowIndex_val g i
  cases op with
  | swap first second =>
    have checked : Mat.swapRows ⟨m, n, g⟩ first.val second.val = .ok (.swap first second) := by
      rw [Mat.swapRows, row, row]
      rfl
    exact .swap (Fin.val_ne_of_ne proper) checked
  | scale i factor =>
    have nonzero : factor ≠ 0 := proper
    have checked : Mat.scaleRow ⟨m, n, g⟩ i.val (.number factor) = .ok (.scale i factor) := by
      simp only [Mat.scaleRow, Cell.value, row, bind, Except.bind, if_neg nonzero]
      rfl
    exact .scale nonzero checked
  | add target source factor =>
    obtain ⟨apart, nonzero⟩ := proper
    have checked : Mat.addScaledRow ⟨m, n, g⟩ target.val source.val (.number factor) =
        .ok (.add target source factor) := by
      simp only [Mat.addScaledRow, Cell.value, row, bind, Except.bind]
      rfl
    exact .add (Fin.val_ne_of_ne apart) nonzero checked

/-- **The steps of proper operations** can be replayed, up to the matrix that they lead to. -/
theorem replays_steps {ops : List (RowOperation m)} (proper : ∀ op ∈ ops, op.IsProper)
    (g : Grid m n) : Journal.Replays ⟨m, n, g⟩ (steps ops g) ⟨m, n, applyAll ops g⟩ := by
  induction ops generalizing g with
  | nil => exact .nil
  | cons op rest ih =>
    obtain ⟨first, more⟩ := List.forall_mem_cons.mp proper
    exact .cons (repeats_step first g) (ih more (op.apply g))

end RowOperation

namespace Reduction

variable {start : Grid m n} {r : Reduction start}

/-- All operations of the elimination are proper. -/
def IsProper (r : Reduction start) : Prop :=
  ∀ op ∈ r.operations, op.IsProper

/-- **The steps of a proper elimination can be replayed**, up to the grid that it reaches. -/
theorem IsProper.replays (proper : r.IsProper) :
    Journal.Replays ⟨m, n, start⟩ r.steps ⟨m, n, r.grid⟩ := by
  have all : ∀ op ∈ r.history, op.IsProper := fun op mem => proper op (List.mem_reverse.mp mem)
  have replays := RowOperation.replays_steps all start
  rwa [show RowOperation.applyAll r.history start = r.grid from r.reached] at replays

/-! ## Steps of a pass -/

theorem isProper_begin (start : Grid m n) : (begin start).IsProper := by
  intro op mem
  cases mem

theorem IsProper.perform (proper : r.IsProper) {op : RowOperation m} (last : op.IsProper) :
    (r.perform op).IsProper :=
  List.forall_mem_cons.mpr ⟨last, proper⟩

theorem IsProper.exchange (proper : r.IsProper) (i j : Fin m) : (r.exchange i j).IsProper := by
  rw [Reduction.exchange]
  split
  · exact proper
  · rename_i apart
    exact proper.perform apart

theorem IsProper.normalize (proper : r.IsProper) {row : Fin m} {col : Fin n}
    (nonzero : r.grid.entry row col ≠ 0) : (r.normalize row col).IsProper := by
  rw [Reduction.normalize]
  split
  · exact proper
  · exact proper.perform (one_div_ne_zero nonzero)

theorem IsProper.clear (proper : r.IsProper) {row : Fin m} (col : Fin n) {pivot : ℚ}
    (nonzero : pivot ≠ 0) {others : List (Fin m)} (apart : row ∉ others) :
    (r.clear row col pivot others).IsProper := by
  rw [Reduction.clear]
  induction others generalizing r with
  | nil => exact proper
  | cons i rest ih =>
    rw [List.mem_cons, not_or] at apart
    rw [List.foldl_cons]
    refine ih ?_ apart.2
    split
    · exact proper
    · rename_i present
      exact proper.perform ⟨Ne.symm apart.1, div_ne_zero (neg_ne_zero.mpr present) nonzero⟩

/-! ## Passes -/

theorem IsProper.clearBelow (proper : r.IsProper) {top found : Fin m} {col : Fin n}
    (nonzero : r.grid.entry found col ≠ 0) : (r.clearBelow top found col).IsProper := by
  refine (proper.exchange top found).clear col ?_ (by simp [mem_rowsBelow])
  rwa [entry_exchange, Equiv.swap_apply_left]

/-- **The forward pass** makes proper operations. -/
theorem isProper_forward (proper : r.IsProper) (row : Nat) (cols : List (Fin n)) :
    (r.forward row cols).1.IsProper := by
  induction cols generalizing r row with
  | nil => exact proper
  | cons col rest ih =>
    rw [forward_cons]
    split
    · split
      · exact ih proper row
      · rename_i found search
        exact ih (proper.clearBelow (findPivot?_eq_some search).2) (row + 1)
    · exact proper

/-- **The backward pass** makes proper operations, because it comes to every pivot while that is
still there. -/
theorem isProper_backward {row : Nat} {cols : List (Fin n)} {pivots : List (Fin m × Fin n)}
    (stairs : Staircase r.grid row cols pivots) (proper : r.IsProper) :
    (r.backward pivots).IsProper := by
  induction stairs with
  | nil => exact proper
  | skip _ _ ih => exact ih
  | pivot nonzero zero tail ih =>
    rw [backward_cons]
    exact (ih.normalize (entry_backward_ne_zero tail nonzero zero)).clear _ one_ne_zero
      (by simp [mem_rowsAbove])

theorem isProper_reducedEchelonIn (columns : List (Fin n)) (g : Grid m n) :
    (reducedEchelonIn columns g).IsProper := by
  have forward := isProper_forward (isProper_begin g) 0 columns
  exact isProper_backward ((begin g).forward_staircase 0 columns) forward

/-- **The reduction of a square block** makes proper operations, also if it stops early. -/
theorem isProper_reduceUntil {start : Grid n (n + p)} {r : Reduction start} (proper : r.IsProper)
    (cols : List (Fin n)) : (r.reduceUntil cols).1.IsProper := by
  induction cols generalizing r with
  | nil => exact proper
  | cons col rest ih =>
    rw [reduceUntil]
    cases search : findPivot? r.grid (col.castAdd p) col.val with
    | none => exact proper
    | some found =>
      have pivot : (r.exchange col found).grid.entry col (col.castAdd p) ≠ 0 := by
        rw [entry_exchange, Equiv.swap_apply_left]
        exact (findPivot?_eq_some search).2
      exact ih (((proper.exchange col found).normalize pivot).clear _ one_ne_zero
        (by simp [mem_otherRows]))

end Reduction

/-- **A triangulation** makes proper operations, also if it stops early. -/
theorem Triangulation.isProper_run {start : Grid n n} {t : Triangulation start}
    (proper : t.reduction.IsProper) (cols : List (Fin n)) : (t.run cols).reduction.IsProper := by
  induction cols generalizing t with
  | nil => exact proper
  | cons col rest ih =>
    rw [Triangulation.run]
    cases search : Reduction.findPivot? t.reduction.grid col col.val with
    | none => exact proper
    | some found => exact ih (proper.clearBelow (Reduction.findPivot?_eq_some search).2)

end ExactAlgebra
