import ExactAlgebra.Proofs.Json.RoundTrip
import ExactAlgebra.Store.Workspace

/-!
# The database behind its file

The database is kept as a text and read from it whenever it is needed. What is read is always sound,
whoever wrote the file, and a sound database is read back as it was written. So a workspace whose
database was just stored has this database and no other.

## Main statements

* `Workspace.isSound_database` — what is loaded is sound;
* `Workspace.database_keep` — what is stored is loaded again.

## Main definitions

* `Database.IsSound` — the databases that a file can hold.
-/

namespace ExactAlgebra

open Json

/-- **A sound database.** The settings are an object, and every value can be written to a file. -/
structure Database.IsSound (db : Database) : Prop where
  settings : ∃ members : Members, db.settings = .object members ∧ members.IsWellFormed
  results : Members.IsWellFormed db.results
  history : ∀ record ∈ db.history, record.IsWellFormed

namespace Database

variable {db : Database}

theorem isWellFormed_defaultSettings : Members.IsWellFormed defaultSettings :=
  ⟨by decide, by simp only [defaultSettings, List.forall_mem_cons]; exact
    ⟨.bool _, .string _, .int _, .string _, List.forall_mem_nil _⟩⟩

theorem isSound_empty : empty.IsSound :=
  ⟨⟨_, rfl, isWellFormed_defaultSettings⟩, Members.isWellFormed_nil, List.forall_mem_nil _⟩

/-- **The parts of any stored value are sound.** -/
theorem isSound_ofJson {value : Json} (wellFormed : value.IsWellFormed) :
    (ofJson value).IsSound := by
  cases value with
  | object members =>
    have each {name : String} {part : Json} (found : Members.get? name members = some part) :
        part.IsWellFormed :=
      (Members.isWellFormed_of_object wellFormed).each _ (Members.mem_of_get? found)
    constructor
    · change ∃ _, settingsIn members = _ ∧ _
      unfold settingsIn
      split
      · rename_i settings found
        exact ⟨settings, rfl, Members.isWellFormed_of_object (each found)⟩
      · exact ⟨_, rfl, isWellFormed_defaultSettings⟩
    · change Members.IsWellFormed (resultsIn members)
      unfold resultsIn
      split
      · rename_i results found
        exact Members.isWellFormed_of_object (each found)
      · exact Members.isWellFormed_nil
    · change ∀ record ∈ historyIn members, _
      unfold historyIn
      split
      · rename_i history found
        cases each found with
        | array items => exact items
      · exact List.forall_mem_nil _
  | _ => exact isSound_empty

theorem isSound_ofText (text : String) : (ofText text).IsSound := by
  unfold ofText
  split
  · rename_i value read
    exact isSound_ofJson (isWellFormed_parse? read)
  · exact isSound_empty

/-- The value of a sound database can be written to a file. -/
theorem IsSound.json (sound : db.IsSound) : db.json.IsWellFormed := by
  obtain ⟨members, same, settings⟩ := sound.settings
  have parts : Members.IsWellFormed [("settings", db.settings),
      ("variables", .object db.results), ("history", .array db.history)] := by
    refine ⟨by simp [Members.names], ?_⟩
    simp only [List.forall_mem_cons]
    exact ⟨same ▸ settings.object, sound.results.object, .array sound.history,
      List.forall_mem_nil _⟩
  exact parts.object

/-- **A sound database is read back from its file.** -/
theorem IsSound.ofText_print (sound : db.IsSound) : ofText db.json.print = db := by
  obtain ⟨members, same, -⟩ := sound.settings
  rw [ofText, parse?_print sound.json]
  obtain ⟨settings, results, history⟩ := db
  obtain rfl : settings = .object members := same
  rfl

end Database

namespace Workspace

/-- **What is loaded is sound**, whatever stands in the file. -/
theorem isSound_database (w : Workspace) : w.database.IsSound := by
  unfold database
  split
  · exact Database.isSound_empty
  · exact Database.isSound_ofText _

/-- **What is stored is loaded again.** -/
theorem database_keep (w : Workspace) {db : Database} (sound : db.IsSound) :
    (w.keep db).database = db :=
  sound.ofText_print

end Workspace

end ExactAlgebra
