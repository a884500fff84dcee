import ExactAlgebra.Store.Database
import ExactAlgebra.Store.Place

/-!
# The workspace

The workspace is a directory: the file of the database and any other files. The database file is a
text like any other, written by the library or by hand. Whoever needs the database reads that text,
and whoever changes the database writes the whole text anew.

## Main definitions

* `Workspace` — the directory;
* `Workspace.database`, `Workspace.keep` — the database as it is loaded, and a new one in its place;
* `Workspace.read`, `Workspace.writeFile` — files by their paths.
-/

namespace ExactAlgebra

open ExactAlgebra.Text

/-- **The file of the database.** -/
inductive StoreFile where
  | absent
  | text (content : String)
  deriving DecidableEq

/-- **A directory** with the file of the database and other files, by their names. -/
structure Workspace where
  store : StoreFile
  files : List (String × String)

namespace Workspace

/-- The directory without any file. -/
def empty : Workspace where
  store := .absent
  files := []

/-! ## The database -/

/-- **The database, as it is loaded.** -/
def database (w : Workspace) : Database :=
  match w.store with
  | .absent => .empty
  | .text content => .ofText content

/-- Puts a database in place of the stored one. -/
def keep (w : Workspace) (db : Database) : Workspace :=
  { w with store := .text db.json.print }

/-- The text of the database file. -/
def storeText? (w : Workspace) : Option String :=
  match w.store with
  | .absent => none
  | .text content => some content

/-- The settings, completed by the defaults. -/
def settings (w : Workspace) : Settings :=
  w.database.fullSettings

/-- Replaces the settings by a value, whatever it is. -/
def saveSettings (w : Workspace) (settings : Json) : Workspace :=
  w.keep { w.database with settings := settings }

/-- Puts an empty database in place of the stored one. -/
def clearAll (w : Workspace) : Workspace :=
  w.keep .empty

/-! ## Files -/

/-- The name of the database file. -/
def storeName : String :=
  "exactsolver.json"

/-- The text of a file that is known by a name. -/
def fileText? (name : String) (files : List (String × String)) : Option String :=
  (files.find? (·.1 = name)).map (·.2)

/-- The name of the file that is always empty, whatever is written to it. -/
def nullDevice : String :=
  "/dev/null"

/-- The text of a file. -/
def content? (w : Workspace) (name : String) : Option String :=
  match fileText? name w.files with
  | some content => some content
  | none =>
    if name = storeName then w.storeText?
    else if name = nullDevice then some ""
    else none

/-- **The place that a path leads to.** A file from elsewhere is known by its whole path. -/
def place (w : Workspace) (path : String) : Except Error Place :=
  if (fileText? path w.files).isSome then .ok (.file path)
  else Place.ofPath (fun name => (w.content? name).isSome) path

/-- **Reads a file.** -/
def read (w : Workspace) (path : String) : Except Error String := do
  match ← w.place path with
  | .directory _ => throw (.isDirectory (quoted path))
  | .file name =>
    match w.content? name with
    | none => throw (.noFile (quoted path))
    | some content =>
      if Place.wantsDirectory path then throw (.notDirectory (quoted path)) else return content

/-- Puts a text into a list of files. -/
def putFile (name content : String) : List (String × String) → List (String × String)
  | [] => [(name, content)]
  | (key, old) :: rest =>
    if key = name then (key, content) :: rest else (key, old) :: putFile name content rest

/-- Puts a text into the file with a given name. -/
def putText (w : Workspace) (name content : String) : Workspace :=
  if name = storeName ∧ fileText? name w.files = none then { w with store := .text content }
  else if name = nullDevice then w
  else { w with files := putFile name content w.files }

/-- **Writes a file.** -/
def writeFile (w : Workspace) (path content : String) : Except Error Workspace := do
  match ← w.place path with
  | .directory _ => throw (.isDirectory (quoted path))
  | .file name =>
    if Place.wantsDirectory path then throw (.isDirectory (quoted path))
    else return w.putText name content

end Workspace

end ExactAlgebra
