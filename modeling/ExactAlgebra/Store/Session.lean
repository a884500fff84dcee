import ExactAlgebra.Store.History
import ExactAlgebra.Store.NamedResult

/-!
# Sessions

The changes of a workspace as they are carried out: load the database, check what was given, change
the database in memory, and store it. A step that fails ends the change, but what was written before
it stays written; so it matters that everything that can fail comes before the database is stored.

## Main definitions

* `Session` — steps on a workspace, with `load`, `store` and `attempt`, and `Session.run`;
* `Session.save`, `Session.delete`, `Session.importAll`, `Session.clearAll` — named results;
* `Session.saveSettings`, `Session.addRecord`, `Session.showHistory`, `Session.findRecord`,
  `Session.togglePin`, `Session.deleteRecord`, `Session.clearHistory` — settings and history;
* `Session.exportAll`, `Session.exportTable` — files of results.
-/

namespace ExactAlgebra

open ExactAlgebra.Text

/-- **Steps on a workspace.** Those before the one that fails have been carried out. -/
abbrev Session :=
  ExceptT Error (StateM Workspace)

/-- **What can be given to be kept**: a result, or a plain value that may mean one. -/
inductive Storable where
  | result (r : Result)
  | plain (value : Json)

/-- The result that is meant. -/
def Storable.toResult : Storable → Except Error Result
  | .result r => .ok r
  | .plain value => Result.ofJson value

namespace Session

/-! ## Single steps -/

/-- **Carries out the steps**, on a workspace. -/
def run {α : Type} (steps : Session α) (w : Workspace) : Except Error α × Workspace :=
  StateT.run (ExceptT.run steps) w

/-- Loads the database. -/
def load : Session Database :=
  return (← get).database

/-- Stores a database. -/
def store (db : Database) : Session Unit :=
  modify fun w => w.keep db

/-- A step that changes nothing and may fail. -/
def attempt {α : Type} (x : Except Error α) : Session α :=
  ExceptT.mk (pure x)

/-- Reads a file. -/
def readFile (path : String) : Session String := do
  attempt ((← get).read path)

/-- Writes a file. -/
def writeFile (path content : String) : Session Unit := do
  set (← attempt ((← get).writeFile path content))

/-! ## Named results -/

/-- **Keeps a value** under a name. -/
def save (name : String) (value : Storable) : Session Unit := do
  let name ← attempt (checkName name)
  let db ← load
  let r ← attempt value.toResult
  store { db with results := db.results.put name (.string r.encode) }

/-- **Deletes a result**, and tells whether there was one. -/
def delete (name : String) : Session Bool := do
  let db ← load
  match Json.Members.get? (trim name) db.results with
  | none => return false
  | some removed =>
    match removed with
    | .null => return false
    | _ =>
      store { db with results := Json.Members.erase (trim name) db.results }
      return true

/-- Takes the lines of a file into a database, and counts them. -/
def importFrom (path : String) (number : Nat) (db : Database) (count : Nat) :
    List (List Char) → Session (Database × Nat)
  | [] => return (db, count)
  | line :: rest => do
    match ← attempt (Workspace.importLine path number line) with
    | none => importFrom path (number + 1) db count rest
    | some (name, record) =>
      importFrom path (number + 1)
        { db with results := db.results.put name (.string record) } (count + 1) rest

/-- **Reads results from a file**, and tells how many. -/
def importAll (path : String) : Session Nat := do
  let db ← load
  let content ← readFile path
  let (db, count) ← importFrom path 1 db 0 (Workspace.linesFrom [] content.toList)
  store db
  return count

/-- Puts an empty database in place of the stored one. -/
def clearAll : Session Unit :=
  store .empty

/-- **Writes all results to a file**, and tells how many. -/
def exportAll (path : String) : Session Nat := do
  let results := (← load).results
  writeFile path (String.join ((Workspace.sortedByName results).map Workspace.exportLine))
  return results.length

/-- Writes one result to a file, as a table. -/
def exportTable (name path : String) : Session Unit := do
  let r ← attempt ((← get).load name)
  writeFile path r.csv

/-! ## Settings and history -/

/-- Replaces the settings. -/
def saveSettings (settings : Json) : Session Unit := do
  let db ← load
  store { db with settings := settings }

/-- **Puts a record in front of the history.** The limit is read from the stored settings. -/
def addRecord (stamp : Stamp) (command answer : String) : Session Unit := do
  let db ← load
  let limit ← attempt (integerOf (Settings.value "history_limit" (← load).fullSettings))
  store { db with history := takeSigned limit (newRecord stamp command answer :: db.history) }

/-- The history, pinned records first. -/
def showHistory : Session (List Json) := do
  attempt (← get).recordsByPin

/-- The one id that begins with a given text. -/
def findRecord (text : String) : Session String := do
  attempt ((← get).findRecord text)

/-- **Pins a record, or unpins it**, and tells which. -/
def togglePin (id : String) : Session Bool := do
  let db ← load
  let (pinned, history) ← attempt (Workspace.toggleIn id db.history)
  store { db with history := history }
  return pinned

/-- Deletes a record. -/
def deleteRecord (id : String) : Session Unit := do
  let db ← load
  let history ← attempt (Workspace.withoutId id db.history)
  store { db with history := history }

/-- Deletes all records. -/
def clearHistory : Session Unit := do
  let db ← load
  store { db with history := [] }

end Session

end ExactAlgebra
