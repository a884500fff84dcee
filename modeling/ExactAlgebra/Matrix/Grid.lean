/-!
# Grids of rationals

A grid is a rectangle of rationals whose size is part of its type. The algorithms of the library run
on grids, so that every index they use is in range and every row has the right length without a
check.

## Main definitions

* `Grid m n` — `m` rows of `n` rationals;
* `row`, `entry` — what a grid holds, and two grids with the same entries are equal (`ext_entries`);
* `ofEntries` — the grid with given entries, and `entry_ofEntries` reads them back;
* `zero`, `identity`, `diagonal`, `transpose`, `neg`, `add`, `sub`, `scale`, `mul`;
* `beside`, `minor` — two grids side by side, and a grid without one row and one column.
-/

namespace ExactAlgebra

/-- **A grid of rationals**, row by row. -/
abbrev Grid (m n : Nat) :=
  Vector (Vector Rat n) m

namespace Grid

variable {m n p : Nat}

/-! ## Access -/

/-- A row. -/
def row (g : Grid m n) (i : Fin m) : Vector Rat n :=
  g[i]

/-- **An entry.** -/
def entry (g : Grid m n) (i : Fin m) (j : Fin n) : Rat :=
  (g.row i)[j]

/-- **Two grids with the same entries are equal.** -/
theorem ext_entries {g h : Grid m n} (same : ∀ (i : Fin m) (j : Fin n), g.entry i j = h.entry i j) :
    g = h := by
  apply Vector.ext
  intro i hi
  apply Vector.ext
  intro j hj
  exact same ⟨i, hi⟩ ⟨j, hj⟩

/-! ## Construction -/

/-- **The grid with given entries.** -/
def ofEntries (f : Fin m → Fin n → Rat) : Grid m n :=
  Vector.ofFn fun i => Vector.ofFn fun j => f i j

@[simp]
theorem entry_ofEntries (f : Fin m → Fin n → Rat) (i : Fin m) (j : Fin n) :
    (ofEntries f).entry i j = f i j := by
  simp [ofEntries, entry, row]

/-- The grid with the same number everywhere. -/
def fill (m n : Nat) (q : Rat) : Grid m n :=
  Vector.ofFn fun _ => Vector.replicate n q

/-- The grid of zeros. -/
def zero (m n : Nat) : Grid m n :=
  fill m n 0

/-- The grid with the given numbers on the diagonal and zeros elsewhere. -/
def diagonal (values : Fin n → Rat) : Grid n n :=
  ofEntries fun i j => if i = j then values i else 0

/-- The identity. -/
def identity (n : Nat) : Grid n n :=
  diagonal fun _ => 1

/-! ## Rows and columns -/

/-- The entries of a column, from top to bottom. -/
def column (g : Grid m n) (j : Fin n) : Vector Rat m :=
  g.map fun row => row[j]

/-- Whether all entries of a row are zero. -/
def isZeroRow (g : Grid m n) (i : Fin m) : Bool :=
  (g.row i).all (· = 0)

/-- The column of the first entry of a row that is not zero. -/
def leadingColumn? (g : Grid m n) (i : Fin m) : Option (Fin n) :=
  (List.finRange n).find? fun j => g.entry i j ≠ 0

/-! ## Changes -/

/-- The grid with another row in place of one. -/
def setRow (g : Grid m n) (i : Fin m) (values : Vector Rat n) : Grid m n :=
  g.set i values

/-- The grid with another entry in place of one. -/
def setEntry (g : Grid m n) (i : Fin m) (j : Fin n) (q : Rat) : Grid m n :=
  g.setRow i ((g.row i).set j q)

/-- The grid without a row. -/
def eraseRow (g : Grid m n) (i : Fin m) : Grid (m - 1) n :=
  g.eraseIdx i

/-- The grid without a column. -/
def eraseColumn (g : Grid m n) (j : Fin n) : Grid m (n - 1) :=
  g.map fun row => row.eraseIdx j

/-! ## Arithmetic -/

/-- Rows become columns. -/
def transpose (g : Grid m n) : Grid n m :=
  ofEntries fun i j => g.entry j i

/-- Every entry multiplied by a number. -/
def scale (g : Grid m n) (q : Rat) : Grid m n :=
  g.map fun row => row.map (· * q)

/-- The entrywise sum. -/
def add (g h : Grid m n) : Grid m n :=
  Vector.zipWith (fun a b => Vector.zipWith (· + ·) a b) g h

/-- The entrywise difference. -/
def sub (g h : Grid m n) : Grid m n :=
  Vector.zipWith (fun a b => Vector.zipWith (· - ·) a b) g h

/-- The sum of the numbers at all positions. -/
def sumOver (n : Nat) (value : Fin n → Rat) : Rat :=
  (List.finRange n).foldl (fun total k => total + value k) 0

/-- **The product**, rows by columns. -/
def mul (g : Grid m n) (h : Grid n p) : Grid m p :=
  ofEntries fun i j => sumOver n fun k => g.entry i k * h.entry k j

/-! ## Blocks -/

/-- Two grids with the same number of rows side by side. -/
def beside (g : Grid m n) (h : Grid m p) : Grid m (n + p) :=
  Vector.zipWith (fun a b => a ++ b) g h

/-- The first `k` columns. -/
def leftPart (g : Grid m n) (k : Nat) (fits : k ≤ n) : Grid m k :=
  ofEntries fun i j => g.entry i (j.castLE fits)

/-- The columns from number `k` on. -/
def rightPart (g : Grid m n) (k : Nat) (fits : k ≤ n) : Grid m (n - k) :=
  ofEntries fun i j => g.entry i ⟨k + j.val, by omega⟩

/-- **The grid without one row and one column.** -/
def minor (g : Grid m n) (i : Fin m) (j : Fin n) : Grid (m - 1) (n - 1) :=
  (g.eraseRow i).eraseColumn j

/-- The grid with its first `rows` rows and `cols` columns, filled up with zeros. -/
def resize (g : Grid m n) (rows cols : Nat) : Grid rows cols :=
  ofEntries fun i j =>
    if inside : i.val < m ∧ j.val < n then
      g.entry ⟨i.val, inside.1⟩ ⟨j.val, inside.2⟩
    else 0

/-- The same grid, with the number of columns written in another way. -/
def castCols (same : n = p) (g : Grid m n) : Grid m p :=
  g.map (·.cast same)

end Grid

end ExactAlgebra
