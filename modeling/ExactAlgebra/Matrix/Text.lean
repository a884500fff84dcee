import ExactAlgebra.Matrix.Basic
import ExactAlgebra.Text.Split

/-!
# Matrices as text

A matrix is displayed one row to a line, the columns aligned at the right. It is typed in brackets,
in one of two layouts: rows between semicolons, `[1, 2; 3, 4]`, or rows in brackets of their own,
`[[1, 2], [3, 4]]`. Commas and blanks separate the entries in both.

## Main definitions

* `Mat.text` — the display;
* `Mat.constructorText` — the matrix in one line, in the layout with semicolons;
* `Mat.parse` — reads either layout.
-/

namespace ExactAlgebra.Mat

open ExactAlgebra.Text

/-! ## Writing -/

/-- The texts of the entries, row by row. -/
def texts (a : Mat) : List (List String) :=
  a.toLists.map fun row => row.map Rational.text

/-- A text with blanks in front of it, up to a width. -/
def padLeft (width : Nat) (s : String) : String :=
  String.ofList (List.replicate (width - s.length) ' ') ++ s

/-- The greatest length of the texts in each column. -/
def columnWidths (rows : List (List String)) : List Nat :=
  match rows with
  | [] => []
  | [row] => row.map String.length
  | row :: rest => List.zipWith (fun s w => max s.length w) row (columnWidths rest)

/-- A row of the display. -/
def rowText (widths : List Nat) (row : List String) : String :=
  "[ " ++ "  ".intercalate (List.zipWith padLeft widths row) ++ " ]"

/-- **The display of a matrix**; one without entries is `[]`. -/
def text (a : Mat) : String :=
  if a.rows = 0 ∨ a.cols = 0 then "[]"
  else "\n".intercalate (a.texts.map (rowText (columnWidths a.texts)))

/-- A matrix in one line, as it can be typed. -/
def lineText (a : Mat) : String :=
  "[" ++ "; ".intercalate (a.texts.map fun row => ", ".intercalate row) ++ "]"

/-- The text of a matrix as a constructor call, for a log or a test report. -/
def constructorText (a : Mat) : String :=
  "Matrix('" ++ a.lineText ++ "')"

/-! ## Reading -/

/-- Whether a character separates the cells of a row. -/
def isCellBreak (c : Char) : Bool :=
  c = ',' || isBlank c

/-- The words between separators; `word` holds the one that is being read, in reverse. -/
def wordsFrom (word : List Char) : List Char → List (List Char)
  | [] => if word = [] then [] else [word.reverse]
  | c :: rest =>
    if isCellBreak c then
      if word = [] then wordsFrom [] rest else word.reverse :: wordsFrom [] rest
    else wordsFrom (c :: word) rest

/-- **The cells of a row.** -/
def rowCells (row : List Char) : List Cell :=
  (wordsFrom [] row).map fun word => .text (String.ofList word)

/-- The texts in brackets that hold no brackets themselves; `inner` is the one that is being read,
in reverse. What stands outside of such brackets is skipped. -/
def bracketed (inner : Option (List Char)) : List Char → List (List Char)
  | [] => []
  | c :: rest =>
    if c = '[' then bracketed (some []) rest
    else if c = ']' then
      match inner with
      | some row => row.reverse :: bracketed none rest
      | none => bracketed none rest
    else bracketed (inner.map (c :: ·)) rest

/-- The rows of a matrix, without the outer brackets. -/
def rowTexts (body : List Char) : List (List Char) :=
  match body with
  | '[' :: _ => bracketed none body
  | _ => splitFrom [';'] 0 [] body

/-- The text between a pair of brackets. -/
def unwrap? : List Char → Option (List Char)
  | '[' :: rest => if rest.getLast? = some ']' then some rest.dropLast else none
  | _ => none

/-- **Reads a matrix** with at least one entry in its first row. -/
def parse (s : String) : Except Error Mat :=
  match unwrap? (stripped isBlank s.toList) with
  | none => .error (.notBracketed s)
  | some body =>
    match (rowTexts body).map rowCells with
    | [] | [] :: _ => .error .noEntries
    | rows => ofCells rows

end ExactAlgebra.Mat
