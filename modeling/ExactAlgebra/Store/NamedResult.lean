import ExactAlgebra.Store.Workspace

/-!
# Named results

Results are kept under names that begin with a letter or an underscore; blanks around a name do not
count. They can be written to a file, one line for each with name and record, and read from such a
file, either all lines of it or none.

## Main definitions

* `checkName` — the name without blanks, if it is one;
* `save`, `load`, `delete`, `names` — single results;
* `exportAll`, `exportTable`, `importAll` — files of results.
-/

namespace ExactAlgebra

open ExactAlgebra.Text

/-! ## Names -/

/-- Whether a character can begin a name. -/
def isNameStart (c : Char) : Bool :=
  c.isAlpha || c = '_'

/-- Whether a character can stand in a name. -/
def isNamePart (c : Char) : Bool :=
  c.isAlphanum || c = '_'

/-- Whether a text is a name: ASCII letters, digits and underscores, with no digit first. -/
def isName (s : String) : Bool :=
  match s.toList with
  | [] => false
  | c :: rest => isNameStart c && rest.all isNamePart

/-- **The name without the blanks around it.** -/
def checkName (name : String) : Except Error String :=
  if isName (trim name) then .ok (trim name) else .error (.badName (trim name))

namespace Workspace

/-! ## Single results -/

/-- **Keeps a result** under a name. -/
def save (w : Workspace) (name : String) (r : Result) : Except Error Workspace := do
  let name ← checkName name
  let db := w.database
  return w.keep { db with results := db.results.put name (.string r.encode) }

/-- The result of a stored value, which should be a record. -/
def resultOf : Json → Except Error Result
  | .string record => Result.decode record
  | value =>
    .error (.noSuchPart ("'" ++ value.typeName ++ "' object has no attribute 'startswith'"))

/-- **The result that is kept under a name.** -/
def load (w : Workspace) (name : String) : Except Error Result :=
  match Json.Members.get? (trim name) w.database.results with
  | none | some .null => .error (.nothingStored name)
  | some value => resultOf value

/-- **Deletes a result**, and tells whether there was one. -/
def delete (w : Workspace) (name : String) : Bool × Workspace :=
  let db := w.database
  match Json.Members.get? (trim name) db.results with
  | none | some .null => (false, w)
  | some _ => (true, w.keep { db with results := Json.Members.erase (trim name) db.results })

/-- Some results in the alphabetical order of their names. -/
def sortedByName (results : Json.Members) : Json.Members :=
  results.mergeSort fun a b => a.1 ≤ b.1

/-- **The names in alphabetical order.** -/
def names (w : Workspace) : List String :=
  (sortedByName w.database.results).map (·.1)

/-! ## Files of results -/

/-- The line of a result: its name, a tab, and its record. -/
def exportLine (entry : String × Json) : String :=
  entry.1 ++ "\t" ++ entry.2.plain ++ "\n"

/-- **Writes all results to a file**, and tells how many. -/
def exportAll (w : Workspace) (path : String) : Except Error (Nat × Workspace) := do
  let results := w.database.results
  let written ← w.writeFile path (String.join ((sortedByName results).map exportLine))
  return (results.length, written)

/-- Writes one result to a file, as a table. -/
def exportTable (w : Workspace) (name path : String) : Except Error Workspace := do
  let r ← w.load name
  w.writeFile path r.csv

/-- The lines of a text. A carriage return, a line feed, and one after the other all end a line;
`line` is the one that is being read, in reverse. -/
def linesFrom (line : List Char) : List Char → List (List Char)
  | [] => if line = [] then [] else [line.reverse]
  | '\r' :: '\n' :: rest => line.reverse :: linesFrom [] rest
  | c :: rest =>
    if c = '\n' ∨ c = '\r' then line.reverse :: linesFrom [] rest else linesFrom (c :: line) rest

/-- The name and the record of a line, or nothing if the line is blank; `number` is that of the line
in the file. -/
def importLine (path : String) (number : Nat) (line : List Char) :
    Except Error (Option (String × String)) :=
  if line.all isBlank then .ok none
  else
    match splitFrom ['\t'] 0 [] line with
    | name :: part :: parts => do
      let record := "\t".intercalate ((part :: parts).map String.ofList)
      let _ ← Result.decode record
      return some (← checkName (String.ofList name), record)
    | _ => .error (.noSeparator number path)

/-- The results of some lines. -/
def importLines (path : String) (number : Nat) :
    List (List Char) → Except Error (List (String × String))
  | [] => .ok []
  | line :: rest => do
    let entry ← importLine path number line
    let entries ← importLines path (number + 1) rest
    return entry.toList ++ entries

/-- **Reads results from a file**, and tells how many; a name that is there already gets the new
result. -/
def importAll (w : Workspace) (path : String) : Except Error (Nat × Workspace) := do
  let content ← w.read path
  let entries ← importLines path 1 (linesFrom [] content.toList)
  let db := w.database
  let results := entries.foldl
    (fun results entry => Json.Members.put entry.1 (.string entry.2) results) db.results
  return (entries.length, w.keep { db with results := results })

end Workspace

end ExactAlgebra
