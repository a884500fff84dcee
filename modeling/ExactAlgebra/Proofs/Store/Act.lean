import ExactAlgebra.Proofs.Store.Database
import ExactAlgebra.Proofs.Store.Session

/-!
# Acts

An act is a change of a workspace, or a look at its history, with what is given for it. An act may
fail; then the workspace is as before. Otherwise it leaves the named results changed in one of few
ways, which are listed here once. Between two acts the other files may change as they like.

## Main statements

* `leaves_save`, `leaves_delete`, `leaves_importAll` and so on — what each change leaves;
* `perform_cases` — what an act can do.

## Main definitions

* `Act`, `Act.perform` — the acts, and how they are carried out;
* `Act.Leaves` — the named results behind an act that succeeds.
-/

namespace ExactAlgebra

open Text
open Json (Members)

/-! ## Sound changes -/

namespace Database.IsSound

variable {db : Database}

theorem withSettings (sound : db.IsSound) {settings : Members} (new : settings.IsWellFormed) :
    { db with settings := .object settings }.IsSound :=
  ⟨⟨settings, rfl, new⟩, sound.results, sound.history⟩

theorem withResults (sound : db.IsSound) {results : Members} (new : results.IsWellFormed) :
    { db with results := results }.IsSound :=
  ⟨sound.settings, new, sound.history⟩

theorem withHistory (sound : db.IsSound) {history : List Json}
    (new : ∀ record ∈ history, record.IsWellFormed) : { db with history := history }.IsSound :=
  ⟨sound.settings, sound.results, new⟩

end Database.IsSound

/-- A new record can be written to a file. -/
theorem isWellFormed_newRecord {stamp : Stamp} (real : stamp.epoch.IsReal)
    (command answer : String) : (newRecord stamp command answer).IsWellFormed := by
  have members : Members.IsWellFormed [("id", .string stamp.id), ("command", .string command),
      ("answer", .string answer), ("timestamp", .string stamp.timestamp),
      ("epoch", .float stamp.epoch), ("pinned", .bool false)] := by
    refine ⟨by simp [Members.names], ?_⟩
    simp only [List.forall_mem_cons]
    exact ⟨.string _, .string _, .string _, .string _, .float real, .bool _, List.forall_mem_nil _⟩
  exact members.object

namespace Workspace

/-- A history is well formed with a new record in front. -/
theorem isWellFormed_added (w : Workspace) {stamp : Stamp} (real : stamp.epoch.IsReal)
    (command answer : String) :
    ∀ record ∈ newRecord stamp command answer :: w.database.history, record.IsWellFormed := by
  intro record mem
  rcases List.mem_cons.mp mem with rfl | mem
  · exact isWellFormed_newRecord real command answer
  · exact w.isSound_database.history record mem

/-- **A new record comes first**, and as many are kept as there is room for. -/
theorem addRecord_eq {w : Workspace} {limit : ℕ}
    (limited : w.settings.value "history_limit" = .int limit) (stamp : Stamp)
    (command answer : String) : w.addRecord stamp command answer = .ok (w.keep { w.database with
      history := (newRecord stamp command answer :: w.database.history).take limit }) := by
  rw [addRecord, limited]
  show Except.ok (w.keep { w.database with
    history := takeSigned limit (newRecord stamp command answer :: w.database.history) }) = _
  rw [takeSigned, if_pos (Int.natCast_nonneg limit), Int.toNat_natCast]

/-- What is left without an id is in the same order. -/
theorem sublist_of_withoutId {id : String} {records others : List Json}
    (done : withoutId id records = .ok others) : others.Sublist records := by
  induction records generalizing others with
  | nil =>
    obtain rfl := Except.ok.inj done
    exact .slnil
  | cons first rest ih =>
    obtain ⟨found, -, done⟩ := ok_of_bind done
    obtain ⟨kept, later, done⟩ := ok_of_bind done
    obtain rfl := Except.ok.inj done
    split
    · exact (ih later).cons first
    · exact (ih later).cons_cons first

theorem isWellFormed_flipPin {record changed : Json} {pinned : Bool}
    (wellFormed : record.IsWellFormed) (done : flipPin record = .ok (pinned, changed)) :
    changed.IsWellFormed := by
  obtain ⟨before, -, done⟩ := ok_of_bind done
  split at done
  · rename_i members
    obtain ⟨-, rfl⟩ := Prod.mk.inj (Except.ok.inj done)
    exact ((Members.isWellFormed_of_object wellFormed).put _ (.bool _)).object
  · obtain ⟨-, rfl⟩ := Prod.mk.inj (Except.ok.inj done)
    exact wellFormed

theorem isWellFormed_toggleIn {id : String} {records changed : List Json} {pinned : Bool}
    (each : ∀ record ∈ records, record.IsWellFormed)
    (done : toggleIn id records = .ok (pinned, changed)) :
    ∀ record ∈ changed, record.IsWellFormed := by
  induction records generalizing changed pinned with
  | nil => cases done
  | cons first rest ih =>
    obtain ⟨here, others⟩ := List.forall_mem_cons.mp each
    obtain ⟨found, -, done⟩ := ok_of_bind done
    split at done
    · obtain ⟨⟨_, flipped⟩, flip, done⟩ := ok_of_bind done
      obtain ⟨-, rfl⟩ := Prod.mk.inj (Except.ok.inj done)
      exact List.forall_mem_cons.mpr ⟨isWellFormed_flipPin here flip, others⟩
    · obtain ⟨⟨_, later⟩, toggled, done⟩ := ok_of_bind done
      obtain ⟨-, rfl⟩ := Prod.mk.inj (Except.ok.inj done)
      exact List.forall_mem_cons.mpr ⟨here, ih others toggled⟩

end Workspace

/-- The entries of a file keep an object well-formed. -/
theorem isWellFormed_overlay {members : Members} (wellFormed : members.IsWellFormed)
    (entries : List (String × String)) :
    (members.overlay (Session.keptEntries entries)).IsWellFormed := by
  induction entries generalizing members with
  | nil => exact wellFormed
  | cons entry rest ih => exact ih (wellFormed.put entry.1 (.string entry.2))

/-! ## Acts -/

/-- **An act.** Settings are an object that a file can hold, and the time of a record is a
double. -/
inductive Act where
  | save (name : String) (value : Storable)
  | delete (name : String)
  | importAll (path : String)
  | clearAll
  | saveSettings (settings : Members) (wellFormed : settings.IsWellFormed)
  | addRecord (stamp : Stamp) (real : stamp.epoch.IsReal) (command answer : String)
  | togglePin (id : String)
  | deleteRecord (id : String)
  | clearHistory
  | showHistory
  | findRecord (text : String)
  /-- Somebody else changes the other files. -/
  | elsewhere (files : List (String × String))

namespace Act

/-- **Carries out an act.** -/
def perform : Act → Session Unit
  | save name value => Session.save name value
  | delete name => do let _ ← Session.delete name
  | importAll path => do let _ ← Session.importAll path
  | clearAll => Session.clearAll
  | saveSettings settings _ => Session.saveSettings (.object settings)
  | addRecord stamp _ command answer => Session.addRecord stamp command answer
  | togglePin id => do let _ ← Session.togglePin id
  | deleteRecord id => Session.deleteRecord id
  | clearHistory => Session.clearHistory
  | showHistory => do let _ ← Session.showHistory
  | findRecord text => do let _ ← Session.findRecord text
  | elsewhere files => modify fun w => { w with files := files }

/-- **The named results behind an act that succeeds.** -/
inductive Leaves (w : Workspace) : Act → Members → Prop where
  | save {name : String} {value : Storable} {r : Result} (named : isName (trim name) = true)
      (meant : value.toResult = .ok r) :
      Leaves w (save name value) (w.database.results.put (trim name) (.string r.encode))
  | delete {name : String} (kept : w.database.results.get? (trim name) ≠ none) :
      Leaves w (delete name) (w.database.results.erase (trim name))
  | deleteNothing {name : String} (empty : w.database.results.get? (trim name) = none ∨
      w.database.results.get? (trim name) = some .null) :
      Leaves w (delete name) w.database.results
  | importAll {path content : String} {entries : List (String × String)}
      (read : w.read path = .ok content)
      (lines : Workspace.importLines path 1 (Workspace.linesFrom [] content.toList) = .ok entries) :
      Leaves w (importAll path) (w.database.results.overlay (Session.keptEntries entries))
  | clearAll : Leaves w clearAll []
  | saveSettings (settings : Members) (wellFormed : settings.IsWellFormed) :
      Leaves w (saveSettings settings wellFormed) w.database.results
  | addRecord (stamp : Stamp) (real : stamp.epoch.IsReal) (command answer : String) :
      Leaves w (addRecord stamp real command answer) w.database.results
  | togglePin (id : String) : Leaves w (togglePin id) w.database.results
  | deleteRecord (id : String) : Leaves w (deleteRecord id) w.database.results
  | clearHistory : Leaves w clearHistory w.database.results
  | showHistory : Leaves w showHistory w.database.results
  | findRecord (text : String) : Leaves w (findRecord text) w.database.results
  | elsewhere (files : List (String × String)) : Leaves w (elsewhere files) w.database.results

/-! ## What each change leaves -/

variable {w next : Workspace}

/-- The named results of a database that was just stored. -/
theorem results_keep (w : Workspace) {db : Database} (sound : db.IsSound) :
    (w.keep db).database.results = db.results := by
  rw [w.database_keep sound]

theorem leaves_save {name : String} {value : Storable} {r : Result}
    (meant : value.toResult = .ok r) (saved : w.save name r = .ok next) :
    (save name value).Leaves w next.database.results := by
  obtain ⟨trimmed, named, saved⟩ := ok_of_bind saved
  obtain rfl := Except.ok.inj saved
  rw [results_keep w (w.isSound_database.withResults
    (w.isSound_database.results.put _ (.string _)))]
  rw [checkName] at named
  split at named
  · rename_i isName
    obtain rfl := Except.ok.inj named
    exact .save isName meant
  · cases named

theorem leaves_delete (w : Workspace) (name : String) :
    (delete name).Leaves w (w.delete name).2.database.results := by
  rw [Workspace.delete]
  split
  · rename_i empty
    exact .deleteNothing (.inl empty)
  · rename_i empty
    exact .deleteNothing (.inr empty)
  · rename_i kept
    rw [results_keep w (w.isSound_database.withResults (w.isSound_database.results.erase _))]
    exact .delete (by rw [kept]; simp)

theorem leaves_importAll {path : String} {count : ℕ}
    (imported : w.importAll path = .ok (count, next)) :
    (importAll path).Leaves w next.database.results := by
  obtain ⟨content, read, imported⟩ := ok_of_bind imported
  obtain ⟨entries, lines, imported⟩ := ok_of_bind imported
  obtain ⟨-, rfl⟩ := Prod.mk.inj (Except.ok.inj imported)
  have sound := w.isSound_database
  rw [← Session.overlay_keptEntries,
    results_keep w (sound.withResults (isWellFormed_overlay sound.results entries))]
  exact .importAll read lines

theorem leaves_addRecord {stamp : Stamp} (real : stamp.epoch.IsReal) {command answer : String}
    (added : w.addRecord stamp command answer = .ok next) :
    (addRecord stamp real command answer).Leaves w next.database.results := by
  obtain ⟨limit, -, added⟩ := ok_of_bind added
  obtain rfl := Except.ok.inj added
  have each : ∀ record ∈ takeSigned limit
      (newRecord stamp command answer :: w.database.history), record.IsWellFormed := by
    intro record mem
    exact w.isWellFormed_added real command answer record (List.mem_of_mem_take mem)
  rw [results_keep w (w.isSound_database.withHistory each)]
  exact .addRecord stamp real command answer

theorem leaves_togglePin {id : String} {pinned : Bool}
    (toggled : w.togglePin id = .ok (pinned, next)) :
    (togglePin id).Leaves w next.database.results := by
  obtain ⟨⟨_, history⟩, changed, toggled⟩ := ok_of_bind toggled
  obtain ⟨-, rfl⟩ := Prod.mk.inj (Except.ok.inj toggled)
  rw [results_keep w (w.isSound_database.withHistory
    (Workspace.isWellFormed_toggleIn w.isSound_database.history changed))]
  exact .togglePin id

theorem leaves_deleteRecord {id : String} (deleted : w.deleteRecord id = .ok next) :
    (deleteRecord id).Leaves w next.database.results := by
  obtain ⟨history, others, deleted⟩ := ok_of_bind deleted
  obtain rfl := Except.ok.inj deleted
  rw [results_keep w (w.isSound_database.withHistory fun record mem =>
    w.isSound_database.history record ((Workspace.sublist_of_withoutId others).subset mem))]
  exact .deleteRecord id

/-! ## What an act can do -/

/-- An act that is carried out as a whole fails, or it leaves what its change leaves. -/
theorem cases_of_whole {a : Act} {change : Except Error (Unit × Workspace)}
    (run : Session.run a.perform w = w.whole change)
    (leaves : ∀ next, change = .ok ((), next) → a.Leaves w next.database.results) :
    (∃ e, Session.run a.perform w = (.error e, w)) ∨
      ∃ next, Session.run a.perform w = (.ok (), next) ∧ a.Leaves w next.database.results := by
  rw [run]
  refine (w.whole_cases change).imp_right ?_
  rintro ⟨⟨⟩, next, done, same⟩
  exact ⟨next, same, leaves next done⟩

/-- **An act fails and changes nothing, or it leaves its results behind.** -/
theorem perform_cases (a : Act) (w : Workspace) :
    (∃ e, Session.run a.perform w = (.error e, w)) ∨
      ∃ next, Session.run a.perform w = (.ok (), next) ∧ a.Leaves w next.database.results := by
  have sound := w.isSound_database
  cases a with
  | save name value =>
    refine cases_of_whole (Session.run_save w name value) fun next done => ?_
    obtain ⟨checked, -, done⟩ := ok_of_bind done
    obtain ⟨r, meant, done⟩ := ok_of_bind done
    obtain ⟨kept, saved, done⟩ := ok_of_bind done
    obtain ⟨-, rfl⟩ := Prod.mk.inj (Except.ok.inj done)
    exact leaves_save meant saved
  | delete name =>
    refine .inr ⟨(w.delete name).2, ?_, leaves_delete w name⟩
    rw [perform, Session.run_discard, Session.run_delete]
    rfl
  | importAll path =>
    refine cases_of_whole (Session.run_discard_whole (Session.run_importAll w path)) ?_
    intro next done
    obtain ⟨⟨count, kept⟩, imported, done⟩ := ok_of_map done
    obtain ⟨-, rfl⟩ := Prod.mk.inj done
    exact leaves_importAll imported
  | clearAll =>
    refine .inr ⟨w.clearAll, Session.run_clearAll w, ?_⟩
    rw [Workspace.clearAll, results_keep w Database.isSound_empty]
    exact .clearAll
  | saveSettings settings wellFormed =>
    refine .inr ⟨w.saveSettings (.object settings), Session.run_saveSettings w _, ?_⟩
    rw [Workspace.saveSettings, results_keep w (sound.withSettings wellFormed)]
    exact .saveSettings settings wellFormed
  | addRecord stamp real command answer =>
    refine cases_of_whole (Session.run_addRecord w stamp command answer) fun next done => ?_
    obtain ⟨kept, added, done⟩ := ok_of_map done
    obtain ⟨-, rfl⟩ := Prod.mk.inj done
    exact leaves_addRecord real added
  | togglePin id =>
    refine cases_of_whole (Session.run_discard_whole (Session.run_togglePin w id)) ?_
    intro next done
    obtain ⟨⟨pinned, kept⟩, toggled, done⟩ := ok_of_map done
    obtain ⟨-, rfl⟩ := Prod.mk.inj done
    exact leaves_togglePin toggled
  | deleteRecord id =>
    refine cases_of_whole (Session.run_deleteRecord w id) fun next done => ?_
    obtain ⟨kept, deleted, done⟩ := ok_of_map done
    obtain ⟨-, rfl⟩ := Prod.mk.inj done
    exact leaves_deleteRecord deleted
  | clearHistory =>
    refine .inr ⟨w.clearHistory, Session.run_clearHistory w, ?_⟩
    rw [Workspace.clearHistory, results_keep w (sound.withHistory (List.forall_mem_nil _))]
    exact .clearHistory
  | showHistory =>
    rw [perform, Session.run_discard, Session.run_showHistory]
    cases w.recordsByPin with
    | error e => exact .inl ⟨e, rfl⟩
    | ok records => exact .inr ⟨w, rfl, .showHistory⟩
  | findRecord text =>
    rw [perform, Session.run_discard, Session.run_findRecord]
    cases w.findRecord text with
    | error e => exact .inl ⟨e, rfl⟩
    | ok id => exact .inr ⟨w, rfl, .findRecord text⟩
  | elsewhere files => exact .inr ⟨{ w with files := files }, rfl, .elsewhere files⟩

end Act

end ExactAlgebra
