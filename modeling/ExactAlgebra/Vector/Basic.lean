import ExactAlgebra.Matrix.Text
import ExactAlgebra.Radical.Basic

/-!
# Vectors

A vector is a list of rationals. Its length is exact: a radical, because it is a square root.

## Main definitions

* `Vec` — the type; `Vec.parse`, `Vec.text` read and write it;
* `Vec.ofColumn`, `Vec.toColumn` — columns of matrices;
* `get`, `set`, `add`, `sub`, `scale`, `dot`, `cross`, `norm`, `normalize`.
-/

namespace ExactAlgebra

/-- **A vector.** -/
structure Vec where
  entries : List Rat
  deriving DecidableEq

namespace Vec

/-! ## Construction and text -/

/-- The vector of some cells. -/
def ofCells (cells : List Cell) : Except Error Vec :=
  (Cell.values cells).map Vec.mk

/-- The zero vector; a negative size counts as none. -/
def zeros (n : Int) : Except Error Vec := do
  Error.checkLength n.toNat
  return ⟨List.replicate n.toNat 0⟩

/-- A column of a matrix. -/
def ofColumn (a : Mat) (j : Int) : Except Error Vec :=
  (a.column j).map Vec.mk

/-- **Reads a vector**: a matrix with one row or with one column. -/
def parse (s : String) : Except Error Vec := do
  let a ← Mat.parse s
  if a.rows = 1 then return ⟨← a.row 0⟩
  else if a.cols = 1 then return ⟨← a.column 0⟩
  else throw (.notVector s a.rows a.cols)

/-- **The text of a vector**, `[1, 2, 3]`. -/
def text (v : Vec) : String :=
  "[" ++ ", ".intercalate (v.entries.map Rational.text) ++ "]"

/-- The text of a vector as a constructor call, for a log or a test report. -/
def constructorText (v : Vec) : String :=
  "Vector('" ++ v.text ++ "')"

/-- The number of entries. -/
def size (v : Vec) : Nat :=
  v.entries.length

/-- A vector as a matrix with one column. -/
def toColumn (v : Vec) : Mat :=
  ⟨v.entries.length, 1, Grid.ofEntries fun i _ => v.entries[i]⟩

/-- Whether all entries are zero. -/
def isZero (v : Vec) : Bool :=
  v.entries.all (· = 0)

/-! ## Access -/

/-- The position that an index denotes; negative ones count from the end. -/
def position? (v : Vec) (i : Int) : Option Nat :=
  if 0 ≤ i ∧ i < v.size then some i.toNat
  else if -(v.size : Int) ≤ i ∧ i < 0 then some (i + v.size).toNat
  else none

/-- Refuses a number that is too large for an index. -/
def checkIndex (i : Int) : Except Error Unit :=
  if -Error.countLimit ≤ i ∧ i < Error.countLimit then .ok () else .error .indexTooLarge

/-- An entry. -/
def get (v : Vec) (i : Int) : Except Error Rat := do
  checkIndex i
  match (v.position? i).bind fun k => v.entries[k]? with
  | some q => return q
  | none => throw .noEntryAt

/-- **Sets an entry.** -/
def set (v : Vec) (i : Int) (cell : Cell) : Except Error Vec := do
  let q ← cell.value
  checkIndex i
  match v.position? i with
  | some k => return ⟨v.entries.set k q⟩
  | none => throw .noEntryToSet

/-! ## Arithmetic -/

/-- Refuses vectors of different sizes; the operation is named in the refusal. -/
def checkSize (operation : String) (v w : Vec) : Except Error Unit :=
  if v.size = w.size then .ok () else .error (.unlikeSizes operation v.size w.size)

/-- The sum of two vectors of the same size. -/
def add (v w : Vec) : Except Error Vec := do
  checkSize "add" v w
  return ⟨List.zipWith (· + ·) v.entries w.entries⟩

/-- The difference of two vectors of the same size. -/
def sub (v w : Vec) : Except Error Vec := do
  checkSize "subtract" v w
  return ⟨List.zipWith (· - ·) v.entries w.entries⟩

/-- The opposite. -/
def neg (v : Vec) : Vec :=
  ⟨v.entries.map fun q => -q⟩

/-- Every entry multiplied by a number. -/
def scale (v : Vec) (q : Rat) : Vec :=
  ⟨v.entries.map (· * q)⟩

/-- The sum of the products of entries at the same places. -/
def product (v w : Vec) : Rat :=
  (List.zipWith (· * ·) v.entries w.entries).foldl (· + ·) 0

/-- **The dot product** of two vectors of the same size. -/
def dot (v w : Vec) : Except Error Rat := do
  checkSize "take the dot product of" v w
  return v.product w

/-- **The cross product** of two vectors with three entries. -/
def cross (v w : Vec) : Except Error Vec :=
  match v.entries, w.entries with
  | [a, b, c], [x, y, z] => .ok ⟨[b * z - c * y, c * x - a * z, a * y - b * x]⟩
  | _, _ => .error .crossSize

/-- **The length**, `√(v · v)`. -/
def norm (v : Vec) : Except Error Radical :=
  Radical.sqrt (v.product v)

/-- **The entries divided by the length.** -/
def normalize (v : Vec) : Except Error (List Radical) := do
  let length ← v.norm
  if length.isZero then throw .zeroVector
  v.entries.mapM fun q => (Radical.ofRat q).div length

end Vec

end ExactAlgebra
