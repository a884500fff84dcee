import ExactAlgebra.Elimination.RowOperation

/-!
# Elimination

An elimination brings a grid into a simpler form by row operations. It is a value that holds the
operations made so far together with the grid that they lead to; so the result of every algorithm
here is, by its type, the given grid after a list of row operations.

The forward pass goes through the columns from left to right. A column gets a pivot if one of the
rows that have none yet is not zero there; the first such row is moved up, and the entries below it
are cleared. The backward pass goes through the pivots from the last to the first, scales each to
one and clears the entries above it.

## Main definitions

* `Reduction start` — an elimination that began with the grid `start`;
* `Reduction.forward`, `Reduction.backward` — the two passes;
* `echelon`, `reducedEchelon` — the forward pass alone, and both.
-/

namespace ExactAlgebra

/-- **An elimination** that began with `start`: the operations so far, the last one first, and the
grid they lead to. -/
structure Reduction {m n : Nat} (start : Grid m n) where
  operations : List (RowOperation m)
  grid : Grid m n
  /-- The grid is the result of the operations. -/
  reached : RowOperation.applyAll operations.reverse start = grid

namespace Reduction

variable {m n : Nat} {start : Grid m n}

/-! ## Single operations -/

/-- The elimination that has not begun. -/
def begin (start : Grid m n) : Reduction start :=
  ⟨[], start, rfl⟩

/-- **One more operation.** -/
def perform (r : Reduction start) (op : RowOperation m) : Reduction start where
  operations := op :: r.operations
  grid := op.apply r.grid
  reached := by
    simp [RowOperation.applyAll, ← r.reached]

/-- The operations in the order in which they were made. -/
def history (r : Reduction start) : List (RowOperation m) :=
  r.operations.reverse

/-- The steps of an elimination. -/
def steps (r : Reduction start) : Journal :=
  RowOperation.steps r.history start

/-! ## Pivots -/

/-- The first row from number `from` on that is not zero in a column. -/
def findPivot? (g : Grid m n) (col : Fin n) (first : Nat) : Option (Fin m) :=
  (List.finRange m).find? fun i => first ≤ i.val ∧ g.entry i col ≠ 0

/-- Exchanges two rows, unless they are the same. -/
def exchange (r : Reduction start) (i j : Fin m) : Reduction start :=
  if i = j then r else r.perform (.swap i j)

/-- Scales a row so that its entry in a column becomes one, unless it is. -/
def normalize (r : Reduction start) (row : Fin m) (col : Fin n) : Reduction start :=
  if r.grid.entry row col = 1 then r
  else r.perform (.scale row (1 / r.grid.entry row col))

/-- **Clears a column** in the given rows, by adding multiples of the pivot row. -/
def clear (r : Reduction start) (row : Fin m) (col : Fin n) (pivot : Rat) (others : List (Fin m)) :
    Reduction start :=
  others.foldl
    (fun r i =>
      if r.grid.entry i col = 0 then r
      else r.perform (.add i row (-r.grid.entry i col / pivot)))
    r

/-- The rows below a given one. -/
def rowsBelow (row : Fin m) : List (Fin m) :=
  (List.finRange m).filter (row < ·)

/-- The rows above a given one. -/
def rowsAbove (row : Fin m) : List (Fin m) :=
  (List.finRange m).filter (· < row)

/-! ## Passes -/

/-- **The forward pass** through the given columns, with rows from number `row` on still without a
pivot: the elimination afterwards, and the pivots as pairs of row and column. -/
def forward (r : Reduction start) (row : Nat) :
    List (Fin n) → Reduction start × List (Fin m × Fin n)
  | [] => (r, [])
  | col :: rest =>
    if h : row < m then
      match findPivot? r.grid col row with
      | none => forward r row rest
      | some found =>
        let top : Fin m := ⟨row, h⟩
        let exchanged := r.exchange top found
        let cleared := exchanged.clear top col (exchanged.grid.entry top col) (rowsBelow top)
        let (last, pivots) := forward cleared (row + 1) rest
        (last, (top, col) :: pivots)
    else (r, [])

/-- **The backward pass** through pivots, the last one of the list first. -/
def backward (r : Reduction start) : List (Fin m × Fin n) → Reduction start
  | [] => r
  | (row, col) :: rest =>
    ((backward r rest).normalize row col).clear row col 1 (rowsAbove row)

/-! ## Blocks -/

/-- The block of the first columns. -/
def leftBlock {p q : Nat} {start : Grid m (p + q)} (r : Reduction start) : Grid m p :=
  Grid.ofEntries fun i j => r.grid.entry i (j.castAdd q)

/-- The block of the columns behind the first ones. -/
def rightBlock {p q : Nat} {start : Grid m (p + q)} (r : Reduction start) : Grid m q :=
  Grid.ofEntries fun i j => r.grid.entry i (j.natAdd p)

end Reduction

/-! ## Echelon forms -/

variable {m n : Nat}

/-- The columns in which pivots are looked for: all of them, but none if there are no rows. -/
def pivotColumns (m n : Nat) : List (Fin n) :=
  if m = 0 then [] else List.finRange n

/-- The forward pass through all columns. -/
def echelon (g : Grid m n) : Reduction g :=
  ((Reduction.begin g).forward 0 (pivotColumns m n)).1

/-- Both passes, with pivots in the given columns only. -/
def reducedEchelonIn (columns : List (Fin n)) (g : Grid m n) : Reduction g :=
  let (r, pivots) := (Reduction.begin g).forward 0 columns
  r.backward pivots

/-- **Reduced echelon form**: both passes through all columns. -/
def reducedEchelon (g : Grid m n) : Reduction g :=
  reducedEchelonIn (pivotColumns m n) g

/-- The number of rows that are not zero. -/
def nonzeroRows (g : Grid m n) : Nat :=
  ((List.finRange m).filter fun i => ! g.isZeroRow i).length

/-- **The rank**: the number of rows of the reduced echelon form that are not zero. -/
def Grid.rank (g : Grid m n) : Nat :=
  nonzeroRows (reducedEchelon g).grid

end ExactAlgebra
