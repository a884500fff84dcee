import ExactAlgebra.Json.Parse
import ExactAlgebra.Record.Result

/-!
# The database

What is kept between two runs: settings, named results, and the history of commands, the newest
first. Results are kept as records. A stored file may come from anywhere, so its parts are taken
over one by one, each only if it has the right kind, and defaults stand in for the others.

## Main definitions

* `Database` — the three parts;
* `Database.json`, `Database.ofJson` — the database as a JSON value and back;
* `Settings` — the settings, completed by the defaults.
-/

namespace ExactAlgebra

/-- **The database.** Settings are kept as they were given, whatever they are. -/
structure Database where
  settings : Json
  results : Json.Members
  history : List Json

/-- **Settings** by name. -/
abbrev Settings :=
  Json.Members

/-- The settings that hold as long as no others are given. -/
def defaultSettings : Settings :=
  [("show_steps", .bool false), ("log_level", .string "WARNING"), ("history_limit", .int 200),
   ("expansion_strategy", .string "first_row")]

namespace Database

/-- The database of a first run. -/
def empty : Database where
  settings := .object defaultSettings
  results := []
  history := []

/-- The database as a JSON value. -/
def json (db : Database) : Json :=
  .object [("settings", db.settings), ("variables", .object db.results),
    ("history", .array db.history)]

/-- The settings in a stored object. -/
def settingsIn (members : Json.Members) : Json :=
  match Json.Members.get? "settings" members with
  | some (.object settings) => .object settings
  | _ => empty.settings

/-- The named results in a stored object. -/
def resultsIn (members : Json.Members) : Json.Members :=
  match Json.Members.get? "variables" members with
  | some (.object results) => results
  | _ => []

/-- The history in a stored object. -/
def historyIn (members : Json.Members) : List Json :=
  match Json.Members.get? "history" members with
  | some (.array history) => history
  | _ => []

/-- **The database of a stored value.** What is no object is an empty database. -/
def ofJson : Json → Database
  | .object members => ⟨settingsIn members, resultsIn members, historyIn members⟩
  | _ => empty

/-- The database of a stored text; a text that is no JSON is an empty database. -/
def ofText (text : String) : Database :=
  match Json.parse? text with
  | some value => ofJson value
  | none => empty

/-- **The settings, completed by the defaults.** -/
def fullSettings (db : Database) : Settings :=
  match db.settings with
  | .object settings => Json.Members.overlay defaultSettings settings
  | _ => defaultSettings

/-- A database that was written and read again keeps its named results and its history. -/
theorem ofJson_json (db : Database) :
    (ofJson db.json).results = db.results ∧ (ofJson db.json).history = db.history := by
  constructor <;> rfl

end Database

/-- The value of a setting. -/
def Settings.value (name : String) (settings : Settings) : Json :=
  (Json.Members.get? name settings).getD .null

end ExactAlgebra
