import ExactAlgebra.Proofs.Matrix.Entry
import ExactAlgebra.Proofs.Matrix.Reading
import ExactAlgebra.Proofs.Text.Split

/-!
# Matrices typed back in

A matrix is written with a comma and a blank between the entries of a row. A rational has no comma, no
blank and no bracket in it, so each row is read as the entries that it was written for. In one line
the rows have a semicolon and a blank between them, and cutting there leaves the blank at the start of
the next row, where it is passed over. In the nested layout each row is found between its brackets.
The layout is told by the first character after the outer bracket, and a matrix with entries has a
number there, or the bracket of its first row.

## Main statements

* `rowCells_rowChars` — the cells of a row;
* `map_rowCells_lineBody`, `bracketed_nestedBody` — the rows in either layout;
* `ofLists_toLists` — a matrix from its rows;
* `parse_lineText`, `parse_nestedText` — matrices of any shape with entries.

## Main definitions

* `nestedText` — the layout with brackets around each row.
-/

namespace ExactAlgebra

open Text

namespace Mat

/-! ## Rows -/

/-- A row of numbers, as it is typed. -/
def rowChars (row : List ℚ) : List Char :=
  [',', ' '].intercalate (row.map Rational.chars)

/-- The cells of a row of numbers. -/
def typed (row : List ℚ) : List Cell :=
  row.map fun q => .text (Rational.text q)

theorem toList_rowText (row : List ℚ) :
    (", ".intercalate (row.map Rational.text)).toList = rowChars row := by
  rw [String.toList_intercalate, List.map_map, rowChars]
  exact congrArg (fun words => [',', ' '].intercalate (row.map words)) (funext Rational.toList_text)

/-- **Joined words are the runs of the text**, if they are whole and the separator has breaks only. -/
theorem runs_intercalate {p : Char → Bool} {c : Char} {sep : List Char} {words : List (List Char)}
    (breaks : ∀ d ∈ c :: sep, p d = true) (some : ∀ word ∈ words, word ≠ [])
    (whole : ∀ word ∈ words, ∀ d ∈ word, p d = false) :
    runs p ((c :: sep).intercalate words) = words := by
  obtain ⟨here, there⟩ := List.forall_mem_cons.mp breaks
  induction words with
  | nil => rfl
  | cons word rest ih =>
    obtain ⟨some, others⟩ := List.forall_mem_cons.mp some
    obtain ⟨whole, rest_whole⟩ := List.forall_mem_cons.mp whole
    have first : runs p word = [word] := by
      rw [runs_of_none whole, if_neg some]
    cases rest with
    | nil => rw [List.intercalate_singleton, first]
    | cons next rest =>
      rw [List.intercalate_cons_cons, List.append_assoc, List.cons_append, runs_break _ _ here,
        runs_breaks_append there, ih others rest_whole, first, List.singleton_append]

theorem isCellBreak_of_mem_chars {q : ℚ} {c : Char} (mem : c ∈ Rational.chars q) :
    isCellBreak c = false := by
  have other : c ≠ ',' := by
    rintro rfl
    rcases Rational.mem_chars mem with same | same | digit
    · cases same
    · cases same
    · revert digit
      decide
  rw [isCellBreak, decide_eq_false other, Rational.isBlank_of_mem_chars mem, Bool.or_false]

/-- **The cells of a row** are its numbers. -/
theorem rowCells_rowChars (row : List ℚ) : rowCells (rowChars row) = typed row := by
  have words : wordsFrom [] (rowChars row) = row.map Rational.chars := by
    rw [wordsFrom_eq (by simp), List.reverse_nil, List.nil_append, rowChars]
    refine runs_intercalate ?_ ?_ ?_
    · exact List.forall_mem_cons.mpr ⟨rfl, List.forall_mem_singleton.mpr rfl⟩
    · exact List.forall_mem_map.mpr fun q _ => Rational.chars_ne_nil q
    · exact List.forall_mem_map.mpr fun q _ c mem => isCellBreak_of_mem_chars mem
  rw [rowCells, words, List.map_map]
  rfl

/-- A blank at the start of a row is passed over. -/
theorem rowCells_blank (row : List Char) : rowCells (' ' :: row) = rowCells row :=
  rfl

/-- A row of numbers has no brackets and no semicolons. -/
theorem isMark_of_mem_rowChars {row : List ℚ} {c : Char} (mem : c ∈ rowChars row) :
    isMark c = false := by
  rcases mem_intercalate mem with mem | ⟨word, here, mem⟩
  · have separator : ∀ d ∈ [',', ' '], isMark d = false :=
      List.forall_mem_cons.mpr ⟨rfl, List.forall_mem_singleton.mpr rfl⟩
    exact separator c mem
  · obtain ⟨q, -, rfl⟩ := List.mem_map.mp here
    refine Rational.isMark_of_parse (Rational.parse_text q) c ?_
    rwa [Rational.toList_text]

theorem isBracket_of_mem_rowChars {row : List ℚ} {c : Char} (mem : c ∈ rowChars row) :
    isBracket c = false :=
  ((Bool.or_eq_false_iff ..).mp (isMark_of_mem_rowChars mem)).1

/-! ## Rows between semicolons -/

/-- The rows of a matrix in one line. -/
def lineBody (rows : List (List ℚ)) : List Char :=
  [';', ' '].intercalate (rows.map rowChars)

theorem toList_lineText (a : Mat) : a.lineText.toList = '[' :: (lineBody a.toLists ++ [']']) := by
  have rows : a.texts.map (fun row => (", ".intercalate row).toList) = a.toLists.map rowChars := by
    rw [texts, List.map_map]
    exact congrArg (List.map · _) (funext toList_rowText)
  rw [lineText, String.toList_append, String.toList_append, String.toList_intercalate, List.map_map]
  exact congrArg (fun rows => '[' :: ([';', ' '].intercalate rows ++ [']'])) rows

theorem map_rowCells_lineBody {rows : List (List ℚ)} (nonempty : rows ≠ []) :
    (rowTexts (lineBody rows)).map rowCells = rows.map typed := by
  have plain : (lineBody rows).head? ≠ some '[' := by
    intro opened
    rcases mem_intercalate (List.mem_of_head? opened) with mem | ⟨row, here, mem⟩
    · exact absurd mem (by decide)
    · obtain ⟨row, -, rfl⟩ := List.mem_map.mp here
      exact absurd (isBracket_of_mem_rowChars mem) (by decide)
  have noSemicolon : ∀ row ∈ rows.map rowChars, ';' ∉ row := by
    refine List.forall_mem_map.mpr fun row _ mem => ?_
    exact absurd (isMark_of_mem_rowChars mem) (by decide)
  obtain ⟨row, rest, rfl⟩ := List.exists_cons_of_ne_nil nonempty
  rw [rowTexts_plain plain, lineBody, List.map_cons, splitFrom_intercalate_blank (by decide)
    noSemicolon, List.map_cons, List.map_map, List.map_map, List.map_cons, rowCells_rowChars]
  refine congrArg _ (List.map_congr_left fun row _ => ?_)
  rw [Function.comp_apply, Function.comp_apply, rowCells_blank, rowCells_rowChars]

/-! ## Rows in brackets -/

/-- **A matrix in the nested layout**, `[[1, 2], [3, 4]]`. -/
def nestedText (a : Mat) : String :=
  "[" ++ ", ".intercalate (a.texts.map fun row => "[" ++ ", ".intercalate row ++ "]") ++ "]"

/-- The rows of a matrix, each in brackets. -/
def nestedBody (rows : List (List ℚ)) : List Char :=
  [',', ' '].intercalate (rows.map fun row => '[' :: (rowChars row ++ [']']))

theorem toList_nestedText (a : Mat) :
    a.nestedText.toList = '[' :: (nestedBody a.toLists ++ [']']) := by
  have rows : a.texts.map (fun row => ("[" ++ ", ".intercalate row ++ "]").toList) =
      a.toLists.map fun row => '[' :: (rowChars row ++ [']']) := by
    rw [texts, List.map_map]
    refine List.map_congr_left fun row _ => ?_
    rw [Function.comp_apply, String.toList_append, String.toList_append, toList_rowText]
    rfl
  rw [nestedText, String.toList_append, String.toList_append, String.toList_intercalate,
    List.map_map]
  exact congrArg (fun rows => '[' :: ([',', ' '].intercalate rows ++ [']'])) rows

/-- The first row that is found is the one in front. -/
theorem bracketed_group (row : List ℚ) (cs : List Char) :
    bracketed none ('[' :: (rowChars row ++ ']' :: cs)) = rowChars row :: bracketed none cs := by
  rw [bracketed_cons _ (by decide), if_pos rfl,
    bracketed_row fun c mem => isBracket_of_mem_rowChars mem, List.reverse_nil, List.nil_append]

theorem bracketed_nestedBody (rows : List (List ℚ)) :
    bracketed none (nestedBody rows) = rows.map rowChars := by
  induction rows with
  | nil => rfl
  | cons row rest ih =>
    cases rest with
    | nil =>
      rw [nestedBody, List.map_cons, List.map_nil, List.intercalate_singleton, bracketed_group]
      rfl
    | cons next rest =>
      have front : nestedBody (row :: next :: rest) =
          '[' :: (rowChars row ++ ']' :: ([',', ' '] ++ nestedBody (next :: rest))) := by
        simp [nestedBody, List.intercalate_cons_cons]
      rw [front, bracketed_group, bracketed_none_append (by decide), ih, List.map_cons,
        List.map_cons, List.map_cons]

theorem map_rowCells_nestedBody {rows : List (List ℚ)} (nonempty : rows ≠ []) :
    (rowTexts (nestedBody rows)).map rowCells = rows.map typed := by
  have nested : (nestedBody rows).head? = some '[' := by
    obtain ⟨row, rest, rfl⟩ := List.exists_cons_of_ne_nil nonempty
    rw [nestedBody, List.map_cons, intercalate_cons, List.cons_append, List.head?_cons]
  rw [rowTexts_nested nested, bracketed_nestedBody, List.map_map]
  exact congrArg (List.map · _) (funext rowCells_rowChars)

/-! ## Matrices from their rows -/

/-- A matrix is made up by its shape and its rows. -/
theorem eq_of_toLists {a b : Mat} (rows : a.rows = b.rows) (cols : a.cols = b.cols)
    (lists : a.toLists = b.toLists) : a = b :=
  calc a = ofEntryList a.rows a.cols a.entries := (ofEntryList_entries a).symm
    _ = ofEntryList b.rows b.cols b.entries := by rw [rows, cols, entries, lists, ← entries]
    _ = b := ofEntryList_entries b

theorem toLists_ne_nil {a : Mat} (nonempty : 0 < a.rows) : a.toLists ≠ [] := by
  rw [← List.length_pos_iff, length_toLists]
  exact nonempty

/-- **A matrix with rows** is the one with these rows. -/
theorem ofLists_toLists {a : Mat} (nonempty : 0 < a.rows) : ofLists a.toLists = .ok a := by
  have width : widthOf a.toLists = a.cols := by
    obtain ⟨row, rest, lists⟩ := List.exists_cons_of_ne_nil (toLists_ne_nil nonempty)
    rw [lists]
    exact length_of_mem_toLists (lists ▸ List.mem_cons_self)
  have made : ofLists a.toLists = .ok (ofRectangle a.toLists) := by
    refine if_pos (List.all_eq_true.mpr fun row mem => decide_eq_true ?_)
    rw [width, length_of_mem_toLists mem]
  rw [made]
  exact congrArg Except.ok (eq_of_toLists a.length_toLists width (toLists_of_ofLists made))

/-- The cells of numbers are read as the numbers. -/
theorem ofCells_typed (rows : List (List ℚ)) : ofCells (rows.map typed) = ofLists rows := by
  have read : ∀ row, Cell.values (typed row) = .ok row :=
    mapM_map_ok (show ∀ q, Cell.value (.text (Rational.text q)) = .ok q from Rational.parse_text)
  rw [ofCells, mapM_map_ok read]
  rfl

/-! ## Reading -/

theorem stripped_bracketed (body : List Char) :
    stripped isBlank ('[' :: (body ++ [']'])) = '[' :: (body ++ [']']) := by
  have backwards : ('[' :: (body ++ [']'])).reverse = ']' :: (body.reverse ++ ['[']) := by simp
  rw [stripped, List.dropWhile_cons_of_neg (by decide), backwards,
    List.dropWhile_cons_of_neg (by decide), ← backwards, List.reverse_reverse]

theorem unwrap?_bracketed (body : List Char) : unwrap? ('[' :: (body ++ [']'])) = some body := by
  rw [unwrap?, if_pos (by simp), List.dropLast_concat]

/-- **A text in brackets is read as a matrix**, if the cells of its rows are the entries. -/
theorem parse_eq_ok {s : String} {body : List Char} {a : Mat}
    (written : s.toList = '[' :: (body ++ [']']))
    (read : (rowTexts body).map rowCells = a.toLists.map typed)
    (rows : 0 < a.rows) (cols : 0 < a.cols) : parse s = .ok a := by
  have cells := ofCells_typed a.toLists
  rw [ofLists_toLists rows] at cells
  obtain ⟨row, rest, lists⟩ := List.exists_cons_of_ne_nil (toLists_ne_nil rows)
  have width : row.length = a.cols := length_of_mem_toLists (lists ▸ List.mem_cons_self)
  obtain ⟨q, others, rfl⟩ := List.exists_cons_of_length_pos (width ▸ cols)
  rw [lists, List.map_cons, typed, List.map_cons] at read cells
  rw [parse, written, stripped_bracketed, unwrap?_bracketed]
  simp only [read]
  exact cells

/-- **The text of a matrix in one line** is read as the matrix. -/
theorem parse_lineText {a : Mat} (rows : 0 < a.rows) (cols : 0 < a.cols) :
    parse a.lineText = .ok a :=
  parse_eq_ok (toList_lineText a) (map_rowCells_lineBody (toLists_ne_nil rows)) rows cols

/-- **The nested layout of a matrix** is read as the matrix. -/
theorem parse_nestedText {a : Mat} (rows : 0 < a.rows) (cols : 0 < a.cols) :
    parse a.nestedText = .ok a :=
  parse_eq_ok (toList_nestedText a) (map_rowCells_nestedBody (toLists_ne_nil rows)) rows cols

end Mat

end ExactAlgebra
