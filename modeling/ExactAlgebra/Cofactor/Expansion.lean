import ExactAlgebra.Elimination.Determinant

/-!
# Determinants by expansion

The determinant is the sum of the entries of any line, each multiplied by its cofactor. The line is
the first row, or the one with the most zeros. Terms whose entry is zero are not computed. The
minors are always expanded along their first rows.

## Main definitions

* `Grid.expand` — the determinant by expansion along first rows;
* `Strategy`, `Line`, `Grid.sparsestLine` — how the line is chosen;
* `expandAlong` — the terms of an expansion with the running total;
* `Expansion.value`, `Expansion.steps` — the determinant, and its journal.
-/

namespace ExactAlgebra

open ExactAlgebra.Text

/-- The sign of a position, `1` where row and column number are both even or both odd. -/
def checkerSign (i j : Nat) : Rat :=
  if (i + j) % 2 = 0 then 1 else -1

/-- **The determinant by expansion along first rows.** -/
def Grid.expand : {n : Nat} → Grid n n → Rat
  | 0, _ => 1
  | 1, g => g.entry 0 0
  | 2, g => g.entry 0 0 * g.entry 1 1 - g.entry 0 1 * g.entry 1 0
  | n + 3, g =>
    (List.finRange (n + 3)).foldl
      (fun total j =>
        if g.entry 0 j = 0 then total
        else total + checkerSign 0 j.val * g.entry 0 j * expand (g.minor 0 j))
      0

/-! ## Lines -/

/-- **A row or a column**, counted from zero. -/
inductive Line where
  | row (index : Nat)
  | column (index : Nat)
  deriving DecidableEq

namespace Line

/-- The number of a line. -/
def index : Line → Nat
  | row i => i
  | column j => j

/-- Whether a line is a row. -/
def isRow : Line → Bool
  | row _ => true
  | column _ => false

end Line

/-- The number of zeros in a list. -/
def zeroCount (values : List Rat) : Nat :=
  (values.filter (· = 0)).length

/-- The lines of a matrix with their zeros: the rows first, then the columns. -/
def Mat.lineZeros (a : Mat) : List (Line × Nat) :=
  a.toLists.zipIdx.map (fun entry => (Line.row entry.2, zeroCount entry.1))
    ++ a.columns.zipIdx.map (fun entry => (Line.column entry.2, zeroCount entry.1))

/-- The line that comes first among those with the most zeros. -/
def firstSparsest (best : Line × Nat) : List (Line × Nat) → Line
  | [] => best.1
  | entry :: rest => firstSparsest (if best.2 < entry.2 then entry else best) rest

/-- **The line with the most zeros.** A row is preferred to a column, and a line to those behind
it. -/
def Mat.sparsestLine (a : Mat) : Line :=
  match a.lineZeros with
  | [] => .row 0
  | first :: rest => firstSparsest first rest

/-- **How the line is chosen.** -/
inductive Strategy where
  | firstRow
  | sparsest
  deriving DecidableEq

namespace Strategy

/-- The name of a strategy. -/
def name : Strategy → String
  | firstRow => "first_row"
  | sparsest => "optimal"

/-- The strategy with a given name. -/
def ofName (name : String) : Except Error Strategy :=
  if name = firstRow.name then .ok firstRow
  else if name = sparsest.name then .ok sparsest
  else .error (.unknownStrategy name)

/-- The line of a matrix that a strategy chooses. -/
def line (strategy : Strategy) (a : Mat) : Line :=
  match strategy with
  | firstRow => .row 0
  | sparsest => a.sparsestLine

end Strategy

/-! ## Expansions -/

/-- **A term of an expansion**: the position of the entry in its line and in the grid, the entry,
the cofactor if the entry is not zero, the term, and the sum so far. -/
structure ExpansionTerm (n : Nat) where
  position : Nat
  row : Fin n
  column : Fin n
  entry : Rat
  cofactor : Option Rat
  value : Rat
  total : Rat

/-- The term at a place, given the sum of the terms before it. -/
def expansionTerm {n : Nat} (g : Grid n n) (position : Nat) (i j : Fin n) (total : Rat) :
    ExpansionTerm n :=
  let entry := g.entry i j
  if entry = 0 then ⟨position, i, j, entry, none, 0, total⟩
  else
    let cofactor := checkerSign i.val j.val * (g.minor i j).expand
    ⟨position, i, j, entry, some cofactor, entry * cofactor, total + entry * cofactor⟩

/-- **The terms at the given places**, with the running total. -/
def expandAlong {n : Nat} (g : Grid n n) (position : Nat) (total : Rat) :
    List (Fin n × Fin n) → List (ExpansionTerm n)
  | [] => []
  | (i, j) :: rest =>
    let term := expansionTerm g position i j total
    term :: expandAlong g (position + 1) term.total rest

/-- The places of a line of a square grid. A line that is not there has none. -/
def linePlaces (n : Nat) (line : Line) : List (Fin n × Fin n) :=
  if h : line.index < n then
    (List.finRange n).map fun k =>
      if line.isRow then (⟨line.index, h⟩, k) else (k, ⟨line.index, h⟩)
  else []

/-- The terms of the expansion along a line. -/
def expansionTerms {n : Nat} (g : Grid n n) (line : Line) : List (ExpansionTerm n) :=
  expandAlong g 0 0 (linePlaces n line)

/-- The sum of an expansion: the last running total. -/
def expansionTotal {n : Nat} (terms : List (ExpansionTerm n)) : Rat :=
  (terms.getLast?.map (·.total)).getD 0

/-- **The determinant by expansion along a chosen line.** Up to two rows there is nothing to
choose. -/
def Grid.expandBy {n : Nat} (strategy : Strategy) (g : Grid n n) : Rat :=
  if n ≤ 2 then g.expand else expansionTotal (expansionTerms g (strategy.line ⟨n, n, g⟩))

/-! ## Journal -/

/-- The name of a place, `12` for row one and column two. -/
def placeText (i j : Nat) : String :=
  natText (i + 1) ++ natText (j + 1)

/-- The step of a term. -/
def ExpansionTerm.step {n : Nat} (g : Grid n n) (line : Line) (t : ExpansionTerm n) : Step :=
  let place := placeText t.row.val t.column.val
  let detail := Detail.term line.index t.position t.entry t.cofactor t.value t.total
  match t.cofactor with
  | none => ⟨.minor, "a" ++ place ++ " = 0, so its term is 0", ⟨n, n, g⟩, detail⟩
  | some cofactor =>
    ⟨.minor,
     "a" ++ place ++ "·C" ++ place ++ " = " ++ Rational.text t.entry ++ "·"
       ++ Rational.text cofactor ++ " = " ++ Rational.text t.value,
     ⟨n - 1, n - 1, g.minor t.row t.column⟩, detail⟩

/-- The step that names the line. -/
def Line.step (line : Line) (a : Mat) : Step :=
  ⟨if line.isRow then .rowExpansion else .columnExpansion,
   "Expand along " ++ (if line.isRow then "row " else "column ") ++ natText (line.index + 1),
   a, .line line.index⟩

/-- The step that shows the determinant. -/
def determinantStep (value : Rat) (a : Mat) : Step :=
  ⟨.result, "det = " ++ Rational.text value, a, .total value⟩

/-- **The journal of an expansion.** -/
def expansionSteps {n : Nat} (strategy : Strategy) (g : Grid n n) : Journal :=
  let a : Mat := ⟨n, n, g⟩
  let line := strategy.line a
  let size := natText n
  let middle :=
    if n ≤ 2 then []
    else line.step a :: (expansionTerms g line).map (·.step g line)
  .start ("Expand the determinant of this " ++ size ++ "x" ++ size ++ " matrix") a
    :: (middle ++ [determinantStep (g.expandBy strategy) a])

end ExactAlgebra
