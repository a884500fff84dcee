import ExactAlgebra.Error

/-!
# Fields of a record

A record is one line: fields joined by bars. Inside a field a backslash escapes the bar, itself, and
line ends, so that any text can be a field, a whole record included.

## Main definitions

* `joinFields` — a record from its fields;
* `splitFields` — the fields of a record, or the escape that is none.
-/

namespace ExactAlgebra.Record

/-! ## Writing -/

/-- A character of a field. -/
def escapedChar (c : Char) : List Char :=
  match c with
  | '\\' => ['\\', '\\']
  | '|' => ['\\', '|']
  | '\n' => ['\\', 'n']
  | '\r' => ['\\', 'r']
  | _ => [c]

/-- A field as it stands in a record. -/
def escaped (field : List Char) : List Char :=
  field.flatMap escapedChar

/-- The characters of a record. -/
def joinChars : List (List Char) → List Char
  | [] => []
  | [field] => escaped field
  | field :: rest => escaped field ++ '|' :: joinChars rest

/-- **A record from its fields.** -/
def joinFields (fields : List String) : String :=
  String.ofList (joinChars (fields.map String.toList))

/-! ## Reading -/

/-- The character that a letter behind a backslash stands for. -/
def unescapedChar? (c : Char) : Option Char :=
  match c with
  | '\\' => some '\\'
  | '|' => some '|'
  | 'n' => some '\n'
  | 'r' => some '\r'
  | _ => none

/-- The fields from a place on; `field` holds what has been read of the first one, in reverse. -/
def splitChars (field : List Char) : List Char → Except Error (List (List Char))
  | [] => .ok [field.reverse]
  | '\\' :: [] => .error (.badEscape "")
  | '\\' :: c :: rest =>
    match unescapedChar? c with
    | some meant => splitChars (meant :: field) rest
    | none => .error (.badEscape (String.singleton c))
  | c :: rest =>
    if c = '|' then (splitChars [] rest).map (field.reverse :: ·)
    else splitChars (c :: field) rest

/-- **The fields of a record.** -/
def splitFields (record : String) : Except Error (List String) :=
  (splitChars [] record.toList).map fun fields => fields.map String.ofList

example : (splitFields "a\\||b\\n").toOption = some ["a|", "b\n"] := by decide +kernel

end ExactAlgebra.Record
