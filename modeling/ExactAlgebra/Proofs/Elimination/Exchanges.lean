import ExactAlgebra.Proofs.Elimination.Determinant
import ExactAlgebra.Proofs.Elimination.Worksheet

/-!
# Exchanges in a journal

The sign of a determinant is told by its journal: a triangulation notes every exchange of rows, and
no other step changes the sign. So the determinant can be read off from the last grid and from the
number of exchanges that were noted on the way to it.

## Main statements

* `Reduction.swaps_exchange`, `Reduction.swaps_clear` — what an elimination notes;
* `Triangulation.Sound.value_run_eq` — the determinant, from a journal and the diagonal at its end.

## Main definitions

* `Journal.swaps` — the number of exchanges in a journal.
-/

namespace ExactAlgebra

/-- **The number of exchanges** in a journal. -/
def Journal.swaps (journal : Journal) : Nat :=
  journal.countP fun s => s.kind = .swapRows

variable {m n : Nat}

namespace Reduction

variable {start : Grid m n}

theorem swaps_perform (r : Reduction start) (op : RowOperation m) :
    Journal.swaps (r.perform op).steps =
      Journal.swaps r.steps + if op.kind = .swapRows then 1 else 0 := by
  rw [steps_perform, Journal.swaps, List.countP_append, List.countP_singleton]
  by_cases exchanges : op.kind = .swapRows <;> simp [RowOperation.step, Journal.swaps, exchanges]

/-- An exchange of two rows is noted, but there is none if they are the same. -/
theorem swaps_exchange (r : Reduction start) (i j : Fin m) :
    Journal.swaps (r.exchange i j).steps = Journal.swaps r.steps + if i = j then 0 else 1 := by
  rw [exchange]
  split
  · rfl
  · exact swaps_perform r (.swap i j)

/-- Clearing a column takes no exchange. -/
theorem swaps_clear (r : Reduction start) (row : Fin m) (col : Fin n) (pivot : ℚ)
    (others : List (Fin m)) :
    Journal.swaps (r.clear row col pivot others).steps = Journal.swaps r.steps := by
  refine clear_induction (motive := fun s => Journal.swaps s.steps = Journal.swaps r.steps)
    col pivot rfl ?_
  intro s i _ factor same
  rw [swaps_perform, same]
  rfl

end Reduction

/-- **The determinant that a triangulation shows** is the product of the diagonal of its last grid,
with the sign that the exchanges in its journal give. If it stops at a column without a pivot, both
are zero. -/
theorem Triangulation.Sound.value_run_eq {start : Grid n n} {t : Triangulation start} {done : Nat}
    {cols : List (Fin n)} (before : t.Sound done)
    (sign : (if t.odd then -1 else 1 : ℚ) = (-1) ^ Journal.swaps t.reduction.steps)
    (order : cols.map Fin.val = List.range' done cols.length) (all : done + cols.length = n) :
    (t.run cols).value = (-1) ^ Journal.swaps (t.run cols).reduction.steps *
      ∏ i, (t.run cols).reduction.grid.entry i i := by
  -- along the columns that are left, with the invariant for those behind
  induction cols generalizing t done with
  | nil =>
    obtain rfl : done = n := by simpa using all
    have diagonal : t.product = ∏ i, t.reduction.grid.entry i i := by
      simpa using before.product
    rw [run, value, before.running, ← sign, ← diagonal]
    cases t.odd <;> simp
  | cons col rest ih =>
    simp only [List.map_cons, List.length_cons, List.range'_succ, List.cons.injEq] at order
    obtain ⟨rfl, order⟩ := order
    rw [run]
    split
    · rename_i search
      have diagonal : ∏ i, t.reduction.grid.entry i i = 0 :=
        Finset.prod_eq_zero (Finset.mem_univ col) (Reduction.findPivot?_eq_none search col le_rfl)
      dsimp only
      rw [diagonal, mul_zero]
      rfl
    · rename_i found search
      refine ih (before.step search) ?_ order ?_
      · rw [Reduction.swaps_clear, Reduction.swaps_exchange, pow_add, ← sign]
        by_cases same : col = found
        · simp [same]
        · cases t.odd <;> simp [same]
      · rw [List.length_cons] at all
        omega

end ExactAlgebra
