import ExactAlgebra.Json.Print
import ExactAlgebra.Record.Matrix
import ExactAlgebra.Vector.Basic

/-!
# Results

A result that can be kept is a number, a vector, a matrix or a text. Its record begins with a tag.
An older layout of records, with a long separator and no escapes of its own but for that separator
and line ends, can still be read.

## Main definitions

* `Result` — the results, with `text` and `csv`;
* `Result.encode`, `Result.decode` — the record of a result, and the result of a record;
* `Result.ofJson` — plain values as results.
-/

namespace ExactAlgebra

open ExactAlgebra.Text

/-- **A result that can be kept.** -/
inductive Result where
  | scalar (value : Rat)
  | vector (value : Vec)
  | matrix (value : Mat)
  | text (value : String)
  deriving DecidableEq

namespace Result

/-- What a result looks like. -/
def display : Result → String
  | scalar q => Rational.text q
  | vector v => v.text
  | matrix a => a.text
  | text s => s

/-! ## Records -/

/-- The tags. -/
def tags : List String :=
  ["SCALAR", "VECTOR", "MATRIX", "STRING"]

/-- **The record of a result.** -/
def encode (r : Result) : String :=
  Record.joinFields (match r with
    | scalar q => ["SCALAR", Rational.text q]
    | vector v => "VECTOR" :: v.entries.map Rational.text
    | matrix a => "MATRIX" :: a.fields
    | text s => ["STRING", s])

/-- The result of a tag and the fields behind it. -/
def ofFields (tag : String) (fields : List String) : Except Error Result :=
  match tag, fields with
  | "SCALAR", [q] => (Rational.parse q).map scalar
  | "VECTOR", entries => (entries.mapM Rational.parse).map fun values => vector ⟨values⟩
  | "MATRIX", entries => (Mat.ofFields entries).map matrix
  | "STRING", [s] => .ok (text s)
  | _, _ => .error (.malformedRecord tag)

/-- The separator of the older layout. -/
def oldSeparator : String :=
  "<!RES_FIELD_SEP!>"

/-- Whether a record is in the older layout: its separator follows the tag. -/
def isOldLayout (record : String) : Bool :=
  tags.any fun tag => (tag ++ oldSeparator).toList.isPrefixOf record.toList

/-- A field of the older layout. -/
def oldField (part : String) : String :=
  replace "<!NL!>" "\n" (replace "<!ESC_SEP!>" oldSeparator part)

/-- The fields of a record in either layout. -/
def fieldsOf (record : String) : Except Error (List String) :=
  if isOldLayout record then .ok ((splitOn oldSeparator record).map oldField)
  else Record.splitFields record

/-- **The result of a record.** -/
def decode (record : String) : Except Error Result := do
  match ← fieldsOf record with
  | [] => throw (.malformedRecord "")
  | tag :: fields => ofFields tag fields

/-! ## Tables -/

/-- Whether a cell of a table has to be quoted: it holds what separates cells, a quote, or what ends
a row. -/
def needsQuotes (cs : List Char) : Bool :=
  cs.any fun c => c = ',' || c = '"' || c = '\n'

/-- A cell in quotes; a quote inside is written twice. -/
def quotedCell (cs : List Char) : List Char :=
  '"' :: (cs.flatMap (fun c => if c = '"' then ['"', '"'] else [c]) ++ ['"'])

/-- A cell of a table. -/
def csvCell (s : String) : String :=
  if needsQuotes s.toList then String.ofList (quotedCell s.toList) else s

/-- A row of a table. A single empty cell is quoted, so that the row is not taken for an empty
one. -/
def csvRow (cells : List String) : String :=
  match cells with
  | [""] => "\"\"\n"
  | _ => ",".intercalate (cells.map csvCell) ++ "\n"

/-- **A result as a table**: a row for a vector, one cell for a number or a text. -/
def csv (r : Result) : String :=
  match r with
  | matrix a => String.join (a.texts.map csvRow)
  | vector v => csvRow (v.entries.map Rational.text)
  | _ => csvRow [r.display]

/-! ## Plain values -/

/-- A plain value as a result: a text or a whole number. -/
def ofJson : Json → Except Error Result
  | .string s => .ok (text s)
  | .int n => .ok (scalar n)
  | value => .error (.notStorable value.typeName)

end Result

end ExactAlgebra
