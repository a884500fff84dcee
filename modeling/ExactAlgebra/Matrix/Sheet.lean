import ExactAlgebra.Matrix.Edit

/-!
# Sheets

A matrix as it is kept while it is edited: two counters for its size, and a list of rows. Nothing in
the type keeps them in agreement. An edit checks what it was given, reads cells, writes rows and sets
the counters one after another, and what was written before a step that fails stays written; so the
order of the steps matters.

## Main definitions

* `Sheet` — the counters and the rows, with the checks and the single writes;
* `Editing` — steps on a sheet, and `Editing.run`;
* `Editing.setEntry`, `Editing.setRow`, `Editing.addRow`, `Editing.addColumn`, `Editing.deleteRow`,
  `Editing.deleteColumn`, `Editing.resize` — the edits;
* `Editing.swapRows`, `Editing.scaleRow`, `Editing.addScaledRow` — row operations in place;
* `SheetEdit`, `Sheet.trace` — any of these, and what a sequence of them does step by step.
-/

namespace ExactAlgebra

/-- **A matrix as it is kept**: how many rows and columns it is said to have, and its rows. -/
structure Sheet where
  rows : Nat
  cols : Nat
  data : List (List Rat)
  deriving DecidableEq

namespace Sheet

/-- A matrix, put down as a sheet. -/
def ofMat (a : Mat) : Sheet :=
  ⟨a.rows, a.cols, a.toLists⟩

/-! ## Checks -/

/-- Refuses a row number that the counter does not allow. -/
def checkRow (s : Sheet) (i : Int) : Except Error Unit :=
  if 0 ≤ i ∧ i < s.rows then .ok () else .error (.rowOutOfRange i s.rows)

/-- Refuses a column number that the counter does not allow. -/
def checkColumn (s : Sheet) (j : Int) : Except Error Unit :=
  if 0 ≤ j ∧ j < s.cols then .ok () else .error (.columnOutOfRange j s.cols)

/-- Refuses a number of entries, unless it is the one that is needed. -/
def checkEntries (needed given : Nat) (refusal : Error) : Except Error Unit :=
  if given = needed then .ok () else .error refusal

/-! ## Rows as they are stored -/

/-- The row that is stored at a place. -/
def rowAt (s : Sheet) (i : Nat) : Except Error (List Rat) :=
  match s.data[i]? with
  | some row => .ok row
  | none => .error .noEntryAt

/-- Stores a row in place of another one. -/
def writeRow (s : Sheet) (i : Nat) (row : List Rat) : Except Error Sheet :=
  if i < s.data.length then .ok { s with data := s.data.set i row } else .error .noEntryToSet

/-- Stores an entry in place of another one. -/
def writeEntry (s : Sheet) (i j : Nat) (q : Rat) : Except Error Sheet := do
  let row ← s.rowAt i
  if j < row.length then s.writeRow i (row.set j q) else throw .noEntryToSet

/-- A list with a new member at a place, or at its end if it is shorter. -/
def insertAt {α : Type} (i : Nat) (x : α) (xs : List α) : List α :=
  xs.take i ++ x :: xs.drop i

/-- Inserts a row. -/
def insertRow (s : Sheet) (i : Nat) (row : List Rat) : Sheet :=
  { s with data := insertAt i row s.data }

/-- Inserts an entry into a row. -/
def insertEntry (s : Sheet) (i j : Nat) (q : Rat) : Sheet :=
  { s with data := s.data.modify i (insertAt j q) }

/-- Removes a row. -/
def removeRow (s : Sheet) (i : Nat) : Except Error Sheet :=
  if i < s.data.length then .ok { s with data := s.data.eraseIdx i } else .error .noEntryToSet

/-- Removes an entry from a row. -/
def removeEntry (s : Sheet) (i j : Nat) : Except Error Sheet := do
  let row ← s.rowAt i
  if j < row.length then s.writeRow i (row.eraseIdx j) else throw .noEntryToSet

/-- A list cut or filled up to a length. -/
def fitted {α : Type} (n : Nat) (fill : α) (xs : List α) : List α :=
  xs.take n ++ List.replicate (n - (xs.take n).length) fill

/-- The rows cut or filled up with zeros. -/
def fittedRows (s : Sheet) (rows cols : Nat) : List (List Rat) :=
  fitted rows (List.replicate cols 0) (s.data.map (fitted cols 0))

end Sheet

/-- **Steps on a sheet.** Those before the one that fails have been carried out. -/
abbrev Editing :=
  ExceptT Error (StateM Sheet)

namespace Editing

/-- **Carries out the steps**, on a sheet. -/
def run {α : Type} (steps : Editing α) (s : Sheet) : Except Error α × Sheet :=
  StateT.run (ExceptT.run steps) s

/-- A step that looks at the sheet, and may fail. -/
def look {α : Type} (f : Sheet → Except Error α) : Editing α := do
  ExceptT.mk (pure (f (← get)))

/-- A step that changes the sheet, or fails. -/
def change (f : Sheet → Except Error Sheet) : Editing Unit := do
  set (← look f)

/-! ## Entries and rows -/

/-- **Sets an entry.** -/
def setEntry (i j : Int) (cell : Cell) : Editing Unit := do
  look (·.checkRow i)
  look (·.checkColumn j)
  let q ← look fun _ => cell.value
  change (·.writeEntry i.toNat j.toNat q)

/-- The entries of a row. -/
def row (i : Int) : Editing (List Rat) := do
  look (·.checkRow i)
  look (·.rowAt i.toNat)

/-- **Replaces a row.** -/
def setRow (i : Int) (cells : List Cell) : Editing Unit := do
  look (·.checkRow i)
  let values ← look fun _ => Cell.values cells
  look fun s => Sheet.checkEntries s.cols values.length (.rowLength i s.cols values.length)
  change (·.writeRow i.toNat values)

/-! ## Changes of the shape -/

/-- **Inserts a row**, as `Mat.addRow` does. -/
def addRow (cells : Option (List Cell)) (index : Option Int) : Editing Unit := do
  let values ← look fun s => Mat.lineValues s.cols cells
  look fun s => Sheet.checkEntries s.cols values.length (.newRowLength s.cols values.length)
  let i := index.getD (← get).rows
  look fun s => if 0 ≤ i ∧ i ≤ s.rows then .ok () else .error (.rowOutOfRange i s.rows)
  modify (·.insertRow i.toNat values)
  modify fun s => { s with rows := s.rows + 1 }

/-- Inserts one entry into each row, from a row number on. -/
def insertEntries (j i : Nat) : List Rat → Editing Unit
  | [] => return ()
  | q :: rest => do
    modify (·.insertEntry i j q)
    insertEntries j (i + 1) rest

/-- **Inserts a column**, as `Mat.addColumn` does. -/
def addColumn (cells : Option (List Cell)) (index : Option Int) : Editing Unit := do
  let values ← look fun s => Mat.lineValues s.rows cells
  look fun s => Sheet.checkEntries s.rows values.length (.newColumnLength s.rows values.length)
  let j := index.getD (← get).cols
  look fun s => if 0 ≤ j ∧ j ≤ s.cols then .ok () else .error (.columnOutOfRange j s.cols)
  insertEntries j.toNat 0 values
  modify fun s => { s with cols := s.cols + 1 }

/-- Deletes a row. -/
def deleteRow (i : Int) : Editing Unit := do
  look (·.checkRow i)
  change (·.removeRow i.toNat)
  modify fun s => { s with rows := s.rows - 1 }

/-- Removes one entry from each of some rows, from a row number on. -/
def removeEntries (j i : Nat) : Nat → Editing Unit
  | 0 => return ()
  | left + 1 => do
    change (·.removeEntry i j)
    removeEntries j (i + 1) left

/-- Deletes a column. -/
def deleteColumn (j : Int) : Editing Unit := do
  look (·.checkColumn j)
  removeEntries j.toNat 0 (← get).data.length
  modify fun s => { s with cols := s.cols - 1 }

/-- **Changes the size.** -/
def resize (rows cols : Int) : Editing Unit := do
  look fun _ => Mat.checkShape rows cols
  modify fun s => { s with data := s.fittedRows rows.toNat cols.toNat }
  modify fun s => { s with rows := rows.toNat, cols := cols.toNat }

/-! ## Row operations -/

/-- **Exchanges two rows.** -/
def swapRows (first second : Int) : Editing Unit := do
  let above ← row first
  let below ← row second
  setRow first (below.map .number)
  setRow second (above.map .number)

/-- **Multiplies a row** by a number other than zero. -/
def scaleRow (i : Int) (factor : Cell) : Editing Unit := do
  let q ← look fun _ => factor.value
  look fun _ => if q = 0 then .error .zeroScale else .ok ()
  let values ← row i
  setRow i (values.map fun v => .number (v * q))

/-- **Adds a multiple of one row to another.** -/
def addScaledRow (target source : Int) (factor : Cell) : Editing Unit := do
  let q ← look fun _ => factor.value
  let added ← row source
  let values ← row target
  setRow target ((values.zipWith (fun t s => t + q * s) added).map .number)

end Editing

/-! ## Sequences of edits -/

/-- **An edit** as it is asked for: numbers, lengths and cells may be anything. -/
inductive SheetEdit where
  | setEntry (i j : Int) (cell : Cell)
  | setRow (i : Int) (cells : List Cell)
  | addRow (cells : Option (List Cell)) (index : Option Int)
  | addColumn (cells : Option (List Cell)) (index : Option Int)
  | deleteRow (i : Int)
  | deleteColumn (j : Int)
  | resize (rows cols : Int)
  | swapRows (first second : Int)
  | scaleRow (i : Int) (factor : Cell)
  | addScaledRow (target source : Int) (factor : Cell)

/-- The steps of an edit. -/
def SheetEdit.steps : SheetEdit → Editing Unit
  | setEntry i j cell => Editing.setEntry i j cell
  | setRow i cells => Editing.setRow i cells
  | addRow cells index => Editing.addRow cells index
  | addColumn cells index => Editing.addColumn cells index
  | deleteRow i => Editing.deleteRow i
  | deleteColumn j => Editing.deleteColumn j
  | resize rows cols => Editing.resize rows cols
  | swapRows first second => Editing.swapRows first second
  | scaleRow i factor => Editing.scaleRow i factor
  | addScaledRow target source factor => Editing.addScaledRow target source factor

/-- **What one edit did**: the sheet before it, how it ended, and the sheet after it. -/
structure Edited where
  before : Sheet
  outcome : Except Error Unit
  after : Sheet

/-- **What the edits of a sequence do**, one after another. An edit that fails does not end the
sequence. -/
def Sheet.trace (s : Sheet) : List SheetEdit → List Edited
  | [] => []
  | edit :: rest =>
    let done := edit.steps.run s
    ⟨s, done.1, done.2⟩ :: done.2.trace rest

end ExactAlgebra
