import ExactAlgebra.Elimination.RowOperation
import ExactAlgebra.Matrix.Sheet
import ExactAlgebra.Proofs.Error.Run
import ExactAlgebra.Proofs.Matrix.Entry

/-!
# Sheets are edited all or nothing

A sheet that was made from a matrix passes the same checks as the matrix, and once they are passed
none of the writes can fail. So each edit makes the sheet of the matrix that is computed for it, or
changes nothing. Every rectangular sheet is made from a matrix, and the sheet of a matrix is
rectangular again; that carries over from one edit to a sequence of edits, with or without failures
in between.

## Main statements

* `Editing.run_setEntry`, `Editing.run_addColumn` and so on — each edit is made as a whole;
* `SheetEdit.run_steps`, `SheetEdit.run_keeps` — any edit;
* `Sheet.exists_ofMat` — the rectangular sheets are the matrices;
* `Sheet.trace_keeps` — any sequence of edits.

## Main definitions

* `Sheet.whole` — the end of an edit that is made as a whole or not at all;
* `SheetEdit.result` — the matrix that an edit asks for;
* `Sheet.IsRectangular` — a sheet whose counters are right.
-/

namespace ExactAlgebra

/-! ## Lists -/

namespace Sheet

section Lists

variable {α β : Type} {i : Nat} {x : α} {xs front back : List α}

theorem insertAt_eq_insertIdx (inside : i ≤ xs.length) : insertAt i x xs = xs.insertIdx i x := by
  induction xs generalizing i with
  | nil =>
    obtain rfl : i = 0 := Nat.le_zero.mp inside
    rfl
  | cons y rest ih =>
    cases i with
    | zero => rfl
    | succ i =>
      rw [List.insertIdx_succ_cons, ← ih (Nat.le_of_succ_le_succ inside)]
      rfl

theorem modify_append_cons (f : α → α) :
    (front ++ x :: back).modify front.length f = front ++ f x :: back := by
  induction front with
  | nil => rfl
  | cons y rest ih => exact congrArg (y :: ·) ih

theorem length_fitted (n : Nat) (fill : α) (xs : List α) : (fitted n fill xs).length = n := by
  rw [fitted, List.length_append, List.length_replicate, List.length_take]
  omega

/-- A fitted list has the members of the list as far as they go, and then the filling. -/
theorem getElem?_fitted (n : Nat) (fill : α) (xs : List α) (inside : i < n) :
    (fitted n fill xs)[i]? = some (xs[i]?.getD fill) := by
  by_cases old : i < xs.length
  · rw [fitted, List.getElem?_append_left (by rw [List.length_take]; omega), List.getElem?_take,
      if_pos inside, List.getElem?_eq_getElem old, Option.getD_some]
  · rw [fitted, List.getElem?_append_right (by rw [List.length_take]; omega), List.getElem?_replicate,
      if_pos (by rw [List.length_take]; omega), List.getElem?_eq_none (by omega), Option.getD_none]

theorem getElem?_eq_getD (inside : i < xs.length) (x : α) : xs[i]? = some (xs.getD i x) := by
  rw [List.getD_eq_getElem?_getD, List.getElem?_eq_getElem inside, Option.getD_some]

end Lists

/-! ## Matrices as sheets -/

/-- **The end of an edit that is made as a whole**, or not at all. -/
def whole (s : Sheet) : Except Error Mat → Except Error Unit × Sheet
  | .ok a => (.ok (), ofMat a)
  | .error e => (.error e, s)

section Matrices

variable {m n : Nat} (g : Grid m n)

theorem rows_ofMat : (ofMat ⟨m, n, g⟩).rows = m :=
  rfl

theorem cols_ofMat : (ofMat ⟨m, n, g⟩).cols = n :=
  rfl

theorem toLists_setRow (i : Fin m) (values : Vector ℚ n) :
    Mat.toLists ⟨m, n, g.setRow i values⟩ = (Mat.toLists ⟨m, n, g⟩).set i values.toList := by
  rw [Mat.toLists, Mat.toLists, Grid.setRow, Vector.toList_set, List.map_set]

theorem rowAt_ofMat (i : Fin m) : (ofMat ⟨m, n, g⟩).rowAt i = .ok (g.row i).toList := by
  rw [rowAt, ofMat, Mat.getElem?_toLists]

theorem writeRow_ofMat (i : Fin m) (values : Vector ℚ n) :
    (ofMat ⟨m, n, g⟩).writeRow i values.toList = .ok (ofMat ⟨m, n, g.setRow i values⟩) := by
  have inside : i.val < (ofMat ⟨m, n, g⟩).data.length := by
    rw [ofMat, Mat.length_toLists]
    exact i.isLt
  rw [writeRow, if_pos inside, ofMat, ofMat, toLists_setRow]

theorem writeEntry_ofMat (i : Fin m) (j : Fin n) (q : ℚ) :
    (ofMat ⟨m, n, g⟩).writeEntry i j q = .ok (ofMat ⟨m, n, g.setEntry i j q⟩) := by
  rw [writeEntry, rowAt_ofMat, bind_ok, Vector.length_toList, if_pos j.isLt, ← Vector.toList_set,
    writeRow_ofMat, Grid.setEntry]

theorem insertRow_ofMat {i : Nat} (inside : i ≤ m) (values : Vector ℚ n) :
    (ofMat ⟨m, n, g⟩).insertRow i values.toList =
      ⟨m, n, Mat.toLists ⟨m + 1, n, g.insertIdx i values inside⟩⟩ := by
  rw [insertRow, insertAt_eq_insertIdx (by rw [ofMat, Mat.length_toLists]; exact inside), ofMat,
    Mat.toLists, Mat.toLists, Vector.toList_insertIdx, List.map_insertIdx]

theorem removeRow_ofMat (i : Fin m) :
    (ofMat ⟨m, n, g⟩).removeRow i = .ok ⟨m, n, Mat.toLists ⟨m - 1, n, g.eraseRow i⟩⟩ := by
  have inside : i.val < (ofMat ⟨m, n, g⟩).data.length := by
    rw [ofMat, Mat.length_toLists]
    exact i.isLt
  rw [removeRow, if_pos inside, ofMat, Mat.toLists, Mat.toLists, Grid.eraseRow, Vector.toList_eraseIdx,
    List.eraseIdx_map]

theorem toLists_insertColumn {j : Nat} (inside : j ≤ n) (column : Vector ℚ m) :
    Mat.toLists ⟨m, n + 1, Vector.zipWith (fun row q => row.insertIdx j q inside) g column⟩ =
      (Mat.toLists ⟨m, n, g⟩).zipWith (fun row q => insertAt j q row) column.toList := by
  rw [Mat.toLists, Vector.toList_zipWith, List.map_zipWith, Mat.toLists, List.zipWith_map_left]
  congr 1
  funext row q
  rw [Vector.toList_insertIdx, insertAt_eq_insertIdx (by rw [Vector.length_toList]; exact inside)]

theorem toLists_eraseColumn (j : Fin n) :
    Mat.toLists ⟨m, n - 1, g.eraseColumn j⟩ = (Mat.toLists ⟨m, n, g⟩).map (·.eraseIdx j) := by
  rw [Mat.toLists, Grid.eraseColumn, Vector.toList_map, List.map_map, Mat.toLists, List.map_map]
  refine List.map_congr_left fun row _ => ?_
  exact Vector.toList_eraseIdx _

/-- **Rows with the entries of a matrix** are its rows. -/
theorem eq_toLists {a : Mat} {data : List (List ℚ)} (length : data.length = a.rows)
    (entries : ∀ i : Fin a.rows, ∃ row, data[i.val]? = some row ∧ row.length = a.cols ∧
      ∀ j : Fin a.cols, row[j.val]? = some (a.grid.entry i j)) :
    data = a.toLists := by
  refine List.ext_getElem? fun i => ?_
  by_cases inside : i < a.rows
  · obtain ⟨row, found, wide, same⟩ := entries ⟨i, inside⟩
    rw [found, Mat.getElem?_toLists a.grid ⟨i, inside⟩]
    refine congrArg some (List.ext_getElem? fun j => ?_)
    by_cases inner : j < a.cols
    · rw [same ⟨j, inner⟩, List.getElem?_eq_getElem (by rw [Vector.length_toList]; exact inner)]
      simp [Grid.entry]
    · rw [List.getElem?_eq_none (by omega),
        List.getElem?_eq_none (by rw [Vector.length_toList]; omega)]
  · rw [List.getElem?_eq_none (by omega), List.getElem?_eq_none (by rw [Mat.length_toLists]; omega)]

theorem getElem?_row (i : Fin m) (j : Nat) :
    (g.row i).toList[j]? = if inside : j < n then some (g.entry i ⟨j, inside⟩) else none := by
  split
  · rename_i inside
    rw [List.getElem?_eq_getElem (by rw [Vector.length_toList]; exact inside)]
    simp [Grid.entry]
  · rw [List.getElem?_eq_none (by rw [Vector.length_toList]; omega)]

theorem fittedRows_ofMat (rows cols : Nat) :
    (ofMat ⟨m, n, g⟩).fittedRows rows cols = Mat.toLists ⟨rows, cols, g.resize rows cols⟩ := by
  refine eq_toLists (length_fitted _ _ _) fun i => ⟨_, getElem?_fitted _ _ _ i.isLt, ?_⟩
  rw [List.getElem?_map, ofMat]
  by_cases inside : i.val < m
  · rw [Mat.getElem?_toLists g ⟨i, inside⟩, Option.map_some, Option.getD_some]
    refine ⟨length_fitted _ _ _, fun j => ?_⟩
    rw [getElem?_fitted _ _ _ j.isLt, getElem?_row, Grid.resize, Grid.entry_ofEntries]
    by_cases inner : j.val < n
    · rw [dif_pos inner, dif_pos ⟨inside, inner⟩, Option.getD_some]
    · rw [dif_neg inner, dif_neg fun both => inner both.2, Option.getD_none]
  · rw [List.getElem?_eq_none (by rw [Mat.length_toLists]; exact Nat.not_lt.mp inside),
      Option.map_none, Option.getD_none]
    refine ⟨List.length_replicate, fun j => ?_⟩
    rw [List.getElem?_replicate, if_pos j.isLt, Grid.resize, Grid.entry_ofEntries,
      dif_neg fun both => inside both.1]

end Matrices

end Sheet

/-! ## Steps -/

namespace Editing

variable {α β : Type} (s : Sheet)

@[simp]
theorem run_pure (a : α) : run (pure a) s = (.ok a, s) :=
  rfl

/-- What comes after some steps is carried out unless they fail. -/
theorem run_bind (steps : Editing α) (f : α → Editing β) :
    run (steps >>= f) s = match run steps s with
      | (.ok a, next) => run (f a) next
      | (.error e, next) => (.error e, next) := by
  change (ExceptT.bindCont f (run steps s).1 : StateM Sheet _) (run steps s).2 = _
  rcases run steps s with ⟨_ | a, next⟩ <;> rfl

theorem run_get (f : Sheet → Editing β) : run (get >>= f) s = run (f s) s :=
  rfl

theorem run_modify (f : Sheet → Sheet) : run (modify f) s = (.ok (), f s) :=
  rfl

theorem run_modify_bind (f : Sheet → Sheet) (k : Unit → Editing β) :
    run (modify f >>= k) s = run (k ()) (f s) :=
  rfl

section Look

variable {s} {f : Sheet → Except Error α} {k : α → Editing β}

theorem run_look : run (look f) s = (f s, s) :=
  rfl

theorem run_look_ok {a : α} (found : f s = .ok a) : run (look f >>= k) s = run (k a) s := by
  rw [run_bind, run_look, found]

theorem run_look_error {e : Error} (refused : f s = .error e) :
    run (look f >>= k) s = (.error e, s) := by
  rw [run_bind, run_look, refused]

end Look

section Change

variable {s} {next : Sheet} {f : Sheet → Except Error Sheet} {k : Unit → Editing β}

theorem run_change (done : f s = .ok next) : run (change f) s = (.ok (), next) := by
  rw [change, run_look_ok done]
  rfl

theorem run_change_bind (done : f s = .ok next) : run (change f >>= k) s = run (k ()) next := by
  rw [run_bind, run_change done]

end Change

/-! ## Checks

Each check of a sheet is one of the matrix that the sheet was made from: both succeed and the edit
goes on, or both refuse the same, and nothing has been changed. -/

section Checks

open Sheet

variable {m n : Nat} {g : Grid m n} {k : Unit → Editing Unit}

theorem run_checkRow {i : Int} {h : Fin m → Except Error Mat}
    (next : ∀ l : Fin m, i = l →
      run (k ()) (ofMat ⟨m, n, g⟩) = (ofMat ⟨m, n, g⟩).whole (h l)) :
    run (look (·.checkRow i) >>= k) (ofMat ⟨m, n, g⟩) =
      (ofMat ⟨m, n, g⟩).whole (Mat.rowIndex ⟨m, n, g⟩ i >>= h) := by
  by_cases inside : 0 ≤ i ∧ i < m
  · rw [run_look_ok (if_pos inside), Mat.rowIndex, dif_pos inside]
    exact next _ (Int.toNat_of_nonneg inside.1).symm
  · rw [run_look_error (if_neg inside), Mat.rowIndex, dif_neg inside]
    rfl

theorem run_checkColumn {j : Int} {h : Fin n → Except Error Mat}
    (next : ∀ l : Fin n, j = l →
      run (k ()) (ofMat ⟨m, n, g⟩) = (ofMat ⟨m, n, g⟩).whole (h l)) :
    run (look (·.checkColumn j) >>= k) (ofMat ⟨m, n, g⟩) =
      (ofMat ⟨m, n, g⟩).whole (Mat.columnIndex ⟨m, n, g⟩ j >>= h) := by
  by_cases inside : 0 ≤ j ∧ j < n
  · rw [run_look_ok (if_pos inside), Mat.columnIndex, dif_pos inside]
    exact next _ (Int.toNat_of_nonneg inside.1).symm
  · rw [run_look_error (if_neg inside), Mat.columnIndex, dif_neg inside]
    rfl

/-- Reading what was given needs no sheet. -/
theorem run_given {s : Sheet} {f : Sheet → Except Error α} {x : Except Error α} {k : α → Editing Unit}
    {h : α → Except Error Mat} (given : f s = x)
    (next : ∀ a, x = .ok a → run (k a) s = s.whole (h a)) :
    run (look f >>= k) s = s.whole (x >>= h) := by
  cases x with
  | ok a =>
    rw [run_look_ok given]
    exact next a rfl
  | error e =>
    rw [run_look_error given]
    rfl

/-- A list has the length that is needed and is a vector, or it is refused. -/
theorem sized?_cases (n : Nat) (values : List ℚ) :
    (∃ row : Vector ℚ n, values = row.toList ∧ Mat.sized? n values = some row ∧
      ∀ refusal, checkEntries n values.length refusal = .ok ()) ∨
      Mat.sized? n values = none ∧ ∀ refusal, checkEntries n values.length refusal = .error refusal := by
  by_cases fits : values.length = n
  · subst fits
    exact .inl ⟨_, rfl, dif_pos rfl, fun _ => if_pos rfl⟩
  · exact .inr ⟨dif_neg fits, fun _ => if_neg fits⟩

/-! ## Entries and rows -/

theorem run_setEntry (a : Mat) (i j : Int) (cell : Cell) :
    run (setEntry i j cell) (ofMat a) = (ofMat a).whole (a.set i j cell) := by
  obtain ⟨m, n, g⟩ := a
  refine run_checkRow fun k row => run_checkColumn fun l column => run_given rfl fun q _ => ?_
  rw [row, column, Int.toNat_natCast, Int.toNat_natCast, run_change (writeEntry_ofMat g k l q)]
  rfl

theorem run_setRow (a : Mat) (i : Int) (cells : List Cell) :
    run (setRow i cells) (ofMat a) = (ofMat a).whole (a.setRow i cells) := by
  obtain ⟨m, n, g⟩ := a
  refine run_checkRow fun k row => run_given rfl fun values _ => ?_
  rcases sized?_cases n values with ⟨entries, same, fits, checked⟩ | ⟨fits, refused⟩
  · rw [fits, run_look_ok (checked _), row, same, Int.toNat_natCast,
      run_change (writeRow_ofMat g k entries)]
    rfl
  · rw [fits, run_look_error (refused _)]
    rfl

/-! ## Changes of the shape -/

theorem run_addRow (a : Mat) (cells : Option (List Cell)) (index : Option Int) :
    run (addRow cells index) (ofMat a) = (ofMat a).whole (a.addRow cells index) := by
  obtain ⟨m, n, g⟩ := a
  refine run_given rfl fun values _ => ?_
  rcases sized?_cases n values with ⟨entries, same, fits, checked⟩ | ⟨fits, refused⟩
  · rw [fits, run_look_ok (checked _), run_get, rows_ofMat]
    by_cases inside : 0 ≤ index.getD m ∧ index.getD m ≤ m
    · have place : (index.getD m).toNat ≤ m := by omega
      rw [run_look_ok (if_pos inside), run_modify_bind, run_modify, same, insertRow_ofMat g place]
      simp only [dif_pos inside]
      rfl
    · rw [run_look_error (if_neg inside)]
      simp only [dif_neg inside]
      rfl
  · rw [fits, run_look_error (refused _)]
    rfl

theorem run_deleteRow (a : Mat) (i : Int) :
    run (deleteRow i) (ofMat a) = (ofMat a).whole (a.deleteRow i) := by
  obtain ⟨m, n, g⟩ := a
  refine run_checkRow fun k row => ?_
  rw [row, Int.toNat_natCast, run_change_bind (removeRow_ofMat g k), run_modify]
  rfl

theorem run_resize (a : Mat) (rows cols : Int) :
    run (resize rows cols) (ofMat a) = (ofMat a).whole (a.resize rows cols) := by
  obtain ⟨m, n, g⟩ := a
  refine run_given rfl fun _ _ => ?_
  rw [run_modify_bind, run_modify, fittedRows_ofMat]
  rfl

/-! ### Columns -/

/-- **A column is inserted row by row**, from the row that has been reached on. -/
theorem run_insertEntries (j : Nat) {values : List ℚ} (front : List (List ℚ)) {back : List (List ℚ)}
    (long : back.length = values.length) (rows cols : Nat) :
    run (insertEntries j front.length values) ⟨rows, cols, front ++ back⟩ =
      (.ok (), ⟨rows, cols, front ++ back.zipWith (fun row q => insertAt j q row) values⟩) := by
  induction values generalizing front back with
  | nil => rw [List.zipWith_nil_right, List.length_eq_zero_iff.mp long, insertEntries, run_pure]
  | cons q values ih =>
    obtain ⟨row, back, rfl⟩ := List.exists_cons_of_length_eq_add_one long
    have inserted : (Sheet.mk rows cols (front ++ row :: back)).insertEntry front.length j q =
        ⟨rows, cols, front ++ [insertAt j q row] ++ back⟩ := by
      rw [insertEntry, modify_append_cons, List.append_assoc, List.singleton_append]
    have next : front.length + 1 = (front ++ [insertAt j q row]).length := by simp
    rw [insertEntries, run_modify_bind, inserted, next, ih _ (Nat.succ.inj long), List.append_assoc,
      List.singleton_append, List.zipWith_cons_cons]

/-- **A column is removed row by row**, from the row that has been reached on. -/
theorem run_removeEntries (j : Nat) (front : List (List ℚ)) {back : List (List ℚ)}
    (wide : ∀ row ∈ back, j < row.length) (rows cols : Nat) :
    run (removeEntries j front.length back.length) ⟨rows, cols, front ++ back⟩ =
      (.ok (), ⟨rows, cols, front ++ back.map (·.eraseIdx j)⟩) := by
  induction back generalizing front with
  | nil => rfl
  | cons row back ih =>
    obtain ⟨here, there⟩ := List.forall_mem_cons.mp wide
    have removed : (Sheet.mk rows cols (front ++ row :: back)).removeEntry front.length j =
        .ok ⟨rows, cols, front ++ [row.eraseIdx j] ++ back⟩ := by
      have found : (Sheet.mk rows cols (front ++ row :: back)).rowAt front.length = .ok row := by
        rw [rowAt, List.getElem?_append_right (Nat.le_refl _), Nat.sub_self, List.getElem?_cons_zero]
      have inside : front.length < (front ++ row :: back).length := by simp
      rw [removeEntry, found, bind_ok, if_pos here, writeRow, if_pos inside,
        List.set_append_right _ _ (Nat.le_refl _), Nat.sub_self, List.set_cons_zero, List.append_assoc,
        List.singleton_append]
    have next : front.length + 1 = (front ++ [row.eraseIdx j]).length := by simp
    rw [List.length_cons, removeEntries, run_change_bind removed, next, ih _ there, List.append_assoc,
      List.singleton_append, List.map_cons]

theorem run_insertColumn {j : Nat} (inside : j ≤ n) (column : Vector ℚ m) :
    run (insertEntries j 0 column.toList) (ofMat ⟨m, n, g⟩) =
      (.ok (), ⟨m, n, Mat.toLists
        ⟨m, n + 1, Vector.zipWith (fun row q => row.insertIdx j q inside) g column⟩⟩) := by
  have long : (Mat.toLists ⟨m, n, g⟩).length = column.toList.length := by
    rw [Mat.length_toLists, Vector.length_toList]
  rw [toLists_insertColumn]
  exact run_insertEntries j [] long m n

theorem run_removeColumn (g : Grid m n) (j : Fin n) :
    run (removeEntries j 0 m) (ofMat ⟨m, n, g⟩) =
      (.ok (), ⟨m, n, Mat.toLists ⟨m, n - 1, g.eraseColumn j⟩⟩) := by
  have wide : ∀ row ∈ Mat.toLists ⟨m, n, g⟩, j.val < row.length := by
    intro row mem
    obtain ⟨values, -, rfl⟩ := List.mem_map.mp mem
    rw [Vector.length_toList]
    exact j.isLt
  have removed := run_removeEntries j [] wide m n
  rw [Mat.length_toLists] at removed
  rw [toLists_eraseColumn]
  exact removed

theorem run_addColumn (a : Mat) (cells : Option (List Cell)) (index : Option Int) :
    run (addColumn cells index) (ofMat a) = (ofMat a).whole (a.addColumn cells index) := by
  obtain ⟨m, n, g⟩ := a
  refine run_given rfl fun values _ => ?_
  rcases sized?_cases m values with ⟨entries, same, fits, checked⟩ | ⟨fits, refused⟩
  · rw [fits, run_look_ok (checked _), run_get, cols_ofMat]
    by_cases inside : 0 ≤ index.getD n ∧ index.getD n ≤ n
    · have place : (index.getD n).toNat ≤ n := by omega
      rw [run_look_ok (if_pos inside), same, run_bind, run_insertColumn place]
      simp only [run_modify, dif_pos inside]
      rfl
    · rw [run_look_error (if_neg inside)]
      simp only [dif_neg inside]
      rfl
  · rw [fits, run_look_error (refused _)]
    rfl

theorem run_deleteColumn (a : Mat) (j : Int) :
    run (deleteColumn j) (ofMat a) = (ofMat a).whole (a.deleteColumn j) := by
  obtain ⟨m, n, g⟩ := a
  refine run_checkColumn fun k column => ?_
  have long : (ofMat ⟨m, n, g⟩).data.length = m := Mat.length_toLists _
  rw [run_get, long, column, Int.toNat_natCast, run_bind, run_removeColumn]
  rfl

/-! ## Row operations -/

theorem run_row {i : Int} {k : List ℚ → Editing Unit} {h : Fin m → Except Error Mat}
    (next : ∀ l : Fin m, i = l → run (k (g.row l).toList) (ofMat ⟨m, n, g⟩) =
      (ofMat ⟨m, n, g⟩).whole (h l)) :
    run (row i >>= k) (ofMat ⟨m, n, g⟩) =
      (ofMat ⟨m, n, g⟩).whole (Mat.rowIndex ⟨m, n, g⟩ i >>= h) := by
  rw [row, bind_assoc]
  refine run_checkRow fun l place => ?_
  rw [place, Int.toNat_natCast, run_look_ok (rowAt_ofMat g l)]
  exact next l place

/-- Numbers are read as they are. -/
theorem values_number (values : List ℚ) : Cell.values (values.map .number) = .ok values := by
  have back : ∀ q, Cell.value (.number q) = .ok q := fun _ => rfl
  exact mapM_map_ok back values

/-- **A row of numbers that fits is always written.** -/
theorem run_setNumbers (g : Grid m n) (i : Fin m) (values : Vector ℚ n) :
    run (setRow i (values.toList.map .number)) (ofMat ⟨m, n, g⟩) =
      (.ok (), ofMat ⟨m, n, g.setRow i values⟩) := by
  have checked : (ofMat ⟨m, n, g⟩).checkRow i = .ok () := if_pos ⟨by omega, by exact_mod_cast i.isLt⟩
  have fits : checkEntries (ofMat ⟨m, n, g⟩).cols values.toList.length
      (.rowLength i (ofMat ⟨m, n, g⟩).cols values.toList.length) = .ok () :=
    if_pos values.length_toList
  rw [setRow, run_look_ok checked, run_look_ok (values_number _), run_look_ok fits, Int.toNat_natCast,
    run_change (writeRow_ofMat g i values)]

theorem run_swapRows (a : Mat) (first second : Int) :
    run (swapRows first second) (ofMat a) =
      (ofMat a).whole ((a.swapRows first second).map a.operate) := by
  obtain ⟨m, n, g⟩ := a
  rw [Mat.swapRows, map_bind]
  simp only [map_bind]
  refine run_row fun i above => run_row fun j below => ?_
  rw [above, below, run_bind, run_setNumbers]
  exact run_setNumbers _ j (g.row i)

theorem run_scaleRow (a : Mat) (i : Int) (factor : Cell) :
    run (scaleRow i factor) (ofMat a) = (ofMat a).whole ((a.scaleRow i factor).map a.operate) := by
  obtain ⟨m, n, g⟩ := a
  rw [Mat.scaleRow, map_bind]
  refine run_given rfl fun q _ => ?_
  by_cases zero : q = 0
  · rw [run_look_error (if_pos zero), if_pos zero]
    rfl
  · rw [run_look_ok (if_neg zero), if_neg zero, map_bind]
    refine run_row fun k place => ?_
    have scaled : (g.row k).toList.map (fun v => Cell.number (v * q)) =
        ((g.row k).map (· * q)).toList.map .number := by
      rw [Vector.toList_map, List.map_map]
      rfl
    rw [place, scaled]
    exact run_setNumbers g k _

theorem run_addScaledRow (a : Mat) (target source : Int) (factor : Cell) :
    run (addScaledRow target source factor) (ofMat a) =
      (ofMat a).whole ((a.addScaledRow target source factor).map a.operate) := by
  obtain ⟨m, n, g⟩ := a
  rw [Mat.addScaledRow, map_bind]
  simp only [map_bind]
  refine run_given rfl fun q _ => run_row fun k _ => run_row fun l place => ?_
  rw [place, ← Vector.toList_zipWith]
  exact run_setNumbers g l _

end Checks

end Editing

/-! ## Sequences of edits -/

/-- The matrix that an edit asks for. -/
def SheetEdit.result (a : Mat) : SheetEdit → Except Error Mat
  | setEntry i j cell => a.set i j cell
  | setRow i cells => a.setRow i cells
  | addRow cells index => a.addRow cells index
  | addColumn cells index => a.addColumn cells index
  | deleteRow i => a.deleteRow i
  | deleteColumn j => a.deleteColumn j
  | resize rows cols => a.resize rows cols
  | swapRows first second => (a.swapRows first second).map a.operate
  | scaleRow i factor => (a.scaleRow i factor).map a.operate
  | addScaledRow target source factor => (a.addScaledRow target source factor).map a.operate

/-- **An edit of a matrix** makes the matrix that is computed for it, or leaves everything as it
was. -/
theorem SheetEdit.run_steps (a : Mat) (edit : SheetEdit) :
    edit.steps.run (.ofMat a) = (Sheet.ofMat a).whole (edit.result a) := by
  cases edit with
  | setEntry i j cell => exact Editing.run_setEntry a i j cell
  | setRow i cells => exact Editing.run_setRow a i cells
  | addRow cells index => exact Editing.run_addRow a cells index
  | addColumn cells index => exact Editing.run_addColumn a cells index
  | deleteRow i => exact Editing.run_deleteRow a i
  | deleteColumn j => exact Editing.run_deleteColumn a j
  | resize rows cols => exact Editing.run_resize a rows cols
  | swapRows first second => exact Editing.run_swapRows a first second
  | scaleRow i factor => exact Editing.run_scaleRow a i factor
  | addScaledRow target source factor => exact Editing.run_addScaledRow a target source factor

namespace Sheet

/-- **A rectangular sheet**: as many rows as the counter says, each with as many entries as the other
counter says. -/
def IsRectangular (s : Sheet) : Prop :=
  s.data.length = s.rows ∧ ∀ row ∈ s.data, row.length = s.cols

theorem isRectangular_ofMat (a : Mat) : (ofMat a).IsRectangular := by
  refine ⟨Mat.length_toLists a, fun row mem => ?_⟩
  obtain ⟨values, -, rfl⟩ := List.mem_map.mp mem
  exact values.length_toList

/-- **A rectangular sheet is a matrix.** -/
theorem exists_ofMat {s : Sheet} (rectangular : s.IsRectangular) : ∃ a, s = ofMat a := by
  obtain ⟨rows, cols, data⟩ := s
  obtain ⟨long, wide⟩ := rectangular
  refine ⟨⟨rows, cols, Grid.ofEntries fun i j => (data.getD i []).getD j 0⟩, ?_⟩
  rw [ofMat, ← eq_toLists long]
  intro i
  have found := getElem?_eq_getD (by rw [long]; exact i.isLt : i.val < data.length) []
  have width := wide _ (List.mem_of_getElem? found)
  refine ⟨_, found, width, fun j => ?_⟩
  rw [Grid.entry_ofEntries]
  exact getElem?_eq_getD (by rw [width]; exact j.isLt) 0

end Sheet

/-- **An edit keeps a sheet rectangular**, and leaves it as it was if it fails. -/
theorem SheetEdit.run_keeps {s : Sheet} (rectangular : s.IsRectangular) (edit : SheetEdit) :
    (edit.steps.run s).2.IsRectangular ∧
      ∀ e, (edit.steps.run s).1 = .error e → (edit.steps.run s).2 = s := by
  obtain ⟨a, rfl⟩ := Sheet.exists_ofMat rectangular
  rw [run_steps]
  cases edit.result a with
  | ok b => exact ⟨Sheet.isRectangular_ofMat b, fun e failed => nomatch failed⟩
  | error e => exact ⟨rectangular, fun _ _ => rfl⟩

/-- **A matrix stays rectangular, and failed edits leave no trace**, along any sequence of edits. -/
theorem Sheet.trace_keeps {s : Sheet} (rectangular : s.IsRectangular) (edits : List SheetEdit) :
    ∀ edited ∈ s.trace edits, edited.after.IsRectangular ∧
      ∀ e, edited.outcome = .error e → edited.after = edited.before := by
  induction edits generalizing s with
  | nil => exact fun edited mem => absurd mem List.not_mem_nil
  | cons edit rest ih =>
    have step := edit.run_keeps rectangular
    exact List.forall_mem_cons.mpr ⟨step, ih step.1⟩

/-- Edits that succeed and edits that fail, on a matrix with two rows. -/
theorem Sheet.trace_keeps_two :
    IsRectangular ⟨2, 2, [[1, 2], [3, 4]]⟩ ∧
      ∀ edited ∈ trace ⟨2, 2, [[1, 2], [3, 4]]⟩
          [.addColumn (some [.number 5, .text "1/0"]) none, .addRow none (some 0), .deleteColumn 2,
            .resize (-1) 0, .scaleRow 0 (.number 0), .swapRows 0 2],
        edited.after.IsRectangular ∧
          ∀ e, edited.outcome = .error e → edited.after = edited.before :=
  have rectangular : IsRectangular ⟨2, 2, [[1, 2], [3, 4]]⟩ := ⟨rfl, by simp⟩
  ⟨rectangular, trace_keeps rectangular _⟩

end ExactAlgebra
