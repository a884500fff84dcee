import ExactAlgebra.Proofs.Error.Run
import ExactAlgebra.Proofs.Rational.Text
import ExactAlgebra.Proofs.Record.Field
import ExactAlgebra.Record.Matrix

/-!
# Matrices read back

The fields of a matrix are its two sizes and its entries, row by row. The entry in row `i` and
column `j` is therefore number `i · cols + j`, in a matrix of any shape; without rows or columns
there are none.

## Main statements

* `Mat.ofFields_fields` — a matrix from its fields;
* `Mat.decode_encode` — a matrix from its record.
-/

namespace ExactAlgebra.Mat

open Text

/-- **Rows of one length**, one behind the other: where the members of a row are. -/
theorem getElem?_flatten_of_length {α : Type} {n : Nat} {rows : List (List α)}
    (same : ∀ row ∈ rows, row.length = n) (i : Nat) {j : Nat} (inside : j < n) :
    rows.flatten[i * n + j]? = rows[i]?.bind fun row => row[j]? := by
  induction rows generalizing i with
  | nil => rfl
  | cons row rows ih =>
    obtain ⟨length, same⟩ := List.forall_mem_cons.mp same
    rw [List.flatten_cons]
    cases i with
    | zero =>
      rw [Nat.zero_mul, Nat.zero_add, List.getElem?_append_left (by omega)]
      rfl
    | succ i =>
      have next : (i + 1) * n + j - row.length = i * n + j := by
        rw [Nat.succ_mul]
        omega
      rw [List.getElem?_append_right (by rw [Nat.succ_mul]; omega), next, ih same]
      rfl

/-- The entries of a matrix, row by row. -/
def entries (a : Mat) : List ℚ :=
  a.toLists.flatten

theorem length_of_mem_toLists {a : Mat} {row : List ℚ} (mem : row ∈ a.toLists) :
    row.length = a.cols := by
  obtain ⟨values, -, rfl⟩ := List.mem_map.mp mem
  exact values.length_toList

theorem length_entries (a : Mat) : a.entries.length = a.rows * a.cols := by
  have lengths : a.toLists.map List.length = List.replicate a.rows a.cols := by
    rw [List.eq_replicate_iff]
    refine ⟨by simp [toLists], ?_⟩
    intro length mem
    obtain ⟨row, inside, rfl⟩ := List.mem_map.mp mem
    exact length_of_mem_toLists inside
  rw [entries, List.length_flatten, lengths, List.sum_replicate_nat]

theorem fields_eq (a : Mat) :
    a.fields = natText a.rows :: natText a.cols :: a.entries.map Rational.text := by
  rw [fields, texts, entries, List.map_flatten]

/-- **The entries of a matrix** make it up again. -/
theorem ofEntryList_entries (a : Mat) : ofEntryList a.rows a.cols a.entries = a := by
  obtain ⟨rows, cols, grid⟩ := a
  rw [ofEntryList]
  congr 1
  apply Grid.ext_entries
  intro i j
  have same : ∀ row ∈ toLists ⟨rows, cols, grid⟩, row.length = cols :=
    fun _ mem => length_of_mem_toLists mem
  have place := getElem?_flatten_of_length same i.val j.isLt
  rw [Grid.entry_ofEntries, entries, List.getD_eq_getElem?_getD, place]
  simp [toLists, Grid.entry, Grid.row]

/-- **A matrix is made from its fields.** -/
theorem ofFields_fields (a : Mat) : ofFields a.fields = .ok a := by
  have fits : ¬ ((a.rows : Int) < 0 ∨ (a.cols : Int) < 0 ∨
      ((a.entries.map Rational.text).length : Int) ≠ a.rows * a.cols) := by
    rw [List.length_map, length_entries]
    push_cast
    omega
  rw [fields_eq, ofFields, readInt?_natText, readInt?_natText]
  simp only [ofSized, if_neg fits, mapM_map_ok Rational.parse_text, Int.toNat_natCast]
  rw [Except.map, ofEntryList_entries]

/-- **A matrix is read from its record.** -/
theorem decode_encode (a : Mat) : decode a.encode = .ok a := by
  have nonempty : a.fields ≠ [] := by
    rw [fields_eq]
    exact List.cons_ne_nil _ _
  rw [decode, encode, Record.splitFields_joinFields nonempty]
  exact ofFields_fields a

end ExactAlgebra.Mat
