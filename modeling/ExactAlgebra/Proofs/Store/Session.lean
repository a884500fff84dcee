import ExactAlgebra.Proofs.Error.Run
import ExactAlgebra.Store.Session

/-!
# Sessions change all or nothing

In every change, what can fail comes before the database is stored. So a change that fails leaves
the workspace as it was, and one that succeeds makes the workspace that is computed for it as a
whole.

## Main statements

* `Workspace.whole_of_error` — a change that fails leaves the workspace as it was;
* `run_save`, `run_delete`, `run_importAll` and so on — each change is carried out as a whole.

## Main definitions

* `Workspace.whole` — the end of a change that is made as a whole or not at all.
-/

namespace ExactAlgebra

open Text

/-- **The end of a change that is made as a whole**, or not at all. -/
def Workspace.whole {α : Type} (w : Workspace) :
    Except Error (α × Workspace) → Except Error α × Workspace
  | .ok (a, next) => (.ok a, next)
  | .error e => (.error e, w)

namespace Workspace

variable {α : Type} {w next : Workspace} {change : Except Error (α × Workspace)}

/-- It fails, or it makes the next workspace. -/
theorem whole_cases (w : Workspace) (change : Except Error (α × Workspace)) :
    (∃ e, w.whole change = (.error e, w)) ∨
      ∃ a next, change = .ok (a, next) ∧ w.whole change = (.ok a, next) := by
  rcases change with e | ⟨a, next⟩
  · exact .inl ⟨e, rfl⟩
  · exact .inr ⟨a, next, rfl, rfl⟩

theorem whole_eq_ok {a : α} : w.whole change = (.ok a, next) ↔ change = .ok (a, next) := by
  rcases change with e | ⟨b, made⟩ <;> simp [whole]

theorem whole_eq_error {e : Error} : (w.whole change).1 = .error e ↔ change = .error e := by
  rcases change with cause | ⟨b, made⟩ <;> simp [whole]

/-- **A change that fails** leaves the workspace as it was. -/
theorem whole_of_error {e : Error} (failed : (w.whole change).1 = .error e) :
    (w.whole change).2 = w := by
  rw [whole_eq_error.mp failed]
  rfl

end Workspace

namespace Session

variable {α β : Type} (w : Workspace)

/-! ## Single steps -/

@[simp]
theorem run_pure (a : α) : run (pure a) w = (.ok a, w) :=
  rfl

@[simp]
theorem run_load (f : Database → Session β) : run (load >>= f) w = run (f w.database) w :=
  rfl

theorem run_get (f : Workspace → Session β) : run (get >>= f) w = run (f w) w :=
  rfl

@[simp]
theorem run_ok (a : α) (f : α → Session β) :
    run (attempt (.ok a) >>= f) w = run (f a) w :=
  rfl

@[simp]
theorem run_error (e : Error) (f : α → Session β) :
    run (attempt (.error e) >>= f) w = (.error e, w) :=
  rfl

@[simp]
theorem run_store (db : Database) : run (store db) w = (.ok (), w.keep db) :=
  rfl

@[simp]
theorem run_store_bind (db : Database) (f : Unit → Session β) :
    run (store db >>= f) w = run (f ()) (w.keep db) :=
  rfl

@[simp]
theorem run_readFile (path : String) (f : String → Session β) :
    run (readFile path >>= f) w = run (attempt (w.read path) >>= f) w :=
  rfl

theorem run_writeFile (path content : String) :
    run (writeFile path content) w =
      w.whole ((w.writeFile path content).map fun next => ((), next)) := by
  rw [writeFile, run_get]
  cases w.writeFile path content <;> rfl

/-- What comes after some steps is carried out unless they fail. -/
theorem run_bind (steps : Session α) (f : α → Session β) :
    run (steps >>= f) w = match run steps w with
      | (.ok a, next) => run (f a) next
      | (.error e, next) => (.error e, next) := by
  change (ExceptT.bindCont f (run steps w).1 : StateM Workspace _) (run steps w).2 = _
  rcases run steps w with ⟨_ | a, next⟩ <;> rfl

/-- Steps whose answer is not used. -/
theorem run_discard (steps : Session α) :
    run (do let _ ← steps) w = ((run steps w).1.map fun _ => (), (run steps w).2) := by
  rw [run_bind]
  rcases run steps w with ⟨_ | a, next⟩ <;> rfl

theorem run_discard_whole {w : Workspace} {steps : Session α}
    {change : Except Error (α × Workspace)} (whole : run steps w = w.whole change) :
    run (do let _ ← steps) w = w.whole (change.map fun made => ((), made.2)) := by
  rw [run_discard, whole]
  rcases change with _ | ⟨a, next⟩ <;> rfl

/-! ## Settings and history -/

theorem run_saveSettings (settings : Json) :
    run (saveSettings settings) w = (.ok (), w.saveSettings settings) :=
  rfl

theorem run_clearAll : run clearAll w = (.ok (), w.clearAll) :=
  rfl

theorem run_clearHistory : run clearHistory w = (.ok (), w.clearHistory) :=
  rfl

theorem run_addRecord (stamp : Stamp) (command answer : String) :
    run (addRecord stamp command answer) w =
      w.whole ((w.addRecord stamp command answer).map fun next => ((), next)) := by
  rw [addRecord, run_load, run_load, Workspace.addRecord, Workspace.settings]
  cases integerOf (Settings.value "history_limit" w.database.fullSettings) with
  | error e => rw [run_error, bind_error, Except.map, Workspace.whole]
  | ok limit => rw [run_ok, run_store, bind_ok, pure_eq_ok, Except.map, Workspace.whole]

theorem run_showHistory :
    run showHistory w = w.whole (w.recordsByPin.map fun records => (records, w)) := by
  rw [showHistory, run_get]
  cases w.recordsByPin <;> rfl

theorem run_findRecord (text : String) :
    run (findRecord text) w = w.whole ((w.findRecord text).map fun id => (id, w)) := by
  rw [findRecord, run_get]
  cases w.findRecord text <;> rfl

theorem run_togglePin (id : String) : run (togglePin id) w = w.whole (w.togglePin id) := by
  rw [togglePin, run_load, Workspace.togglePin]
  cases Workspace.toggleIn id w.database.history with
  | error e => rw [run_error, bind_error, Workspace.whole]
  | ok toggled =>
    rw [run_ok, run_store_bind, run_pure, bind_ok]
    rfl

theorem run_deleteRecord (id : String) :
    run (deleteRecord id) w = w.whole ((w.deleteRecord id).map fun next => ((), next)) := by
  rw [deleteRecord, run_load, Workspace.deleteRecord]
  cases Workspace.withoutId id w.database.history with
  | error e => rw [run_error, bind_error, Except.map, Workspace.whole]
  | ok history => rw [run_ok, run_store, bind_ok, pure_eq_ok, Except.map, Workspace.whole]

/-! ## Named results -/

theorem run_save (name : String) (value : Storable) :
    run (save name value) w = w.whole (do
      let _ ← checkName name
      let next ← w.save name (← value.toResult)
      return ((), next)) := by
  simp only [save]
  cases named : checkName name with
  | error e => rfl
  | ok name' =>
    cases meant : value.toResult with
    | error e => rfl
    | ok r =>
      simp only [run_ok, run_load, run_store, Workspace.save, named]
      rfl

theorem run_delete (name : String) :
    run (delete name) w = (.ok (w.delete name).1, (w.delete name).2) := by
  rw [delete, run_load, Workspace.delete]
  cases Json.Members.get? (trim name) w.database.results with
  | none => rfl
  | some value =>
    cases value with
    | null => rfl
    | _ => simp only [run_store_bind, run_pure]

/-- The entries of a file, as they are kept. -/
def keptEntries (entries : List (String × String)) : Json.Members :=
  entries.map fun entry => (entry.1, .string entry.2)

theorem overlay_keptEntries (entries : List (String × String)) (members : Json.Members) :
    members.overlay (keptEntries entries) =
      entries.foldl (fun results entry => results.put entry.1 (.string entry.2)) members :=
  List.foldl_map

/-- **The lines of a file are read one by one**, and the workspace stays as it is. -/
theorem run_importFrom (path : String) (number count : ℕ) (db : Database)
    (lines : List (List Char)) :
    run (importFrom path number db count lines) w =
      ((Workspace.importLines path number lines).map fun entries =>
        ({ db with results := db.results.overlay (keptEntries entries) }, count + entries.length),
        w) := by
  -- along the lines, with the database and the count that have been reached
  induction lines generalizing number count db with
  | nil => rfl
  | cons line rest ih =>
    rw [importFrom, Workspace.importLines]
    cases Workspace.importLine path number line with
    | error e => rfl
    | ok entry =>
      rw [run_ok]
      cases entry with
      | none =>
        simp only [ih]
        cases Workspace.importLines path (number + 1) rest <;> rfl
      | some entry =>
        simp only [ih]
        cases Workspace.importLines path (number + 1) rest with
        | error e => rfl
        | ok entries =>
          rw [Except.map, Nat.add_assoc, Nat.add_comm 1]
          rfl

theorem run_importAll (path : String) : run (importAll path) w = w.whole (w.importAll path) := by
  simp only [importAll, run_load, run_readFile, Workspace.importAll]
  cases w.read path with
  | error e => rfl
  | ok content =>
    rw [run_ok, run_bind, run_importFrom]
    simp only [bind, Except.bind, pure, Except.pure]
    cases Workspace.importLines path 1 (Workspace.linesFrom [] content.toList) with
    | error e => rfl
    | ok entries =>
      rw [Except.map, Nat.zero_add, overlay_keptEntries]
      rfl

theorem run_exportAll (path : String) : run (exportAll path) w = w.whole (w.exportAll path) := by
  simp only [exportAll, run_load, Workspace.exportAll]
  rw [run_bind, run_writeFile]
  cases w.writeFile _ _ <;> rfl

theorem run_exportTable (name path : String) :
    run (exportTable name path) w =
      w.whole ((w.exportTable name path).map fun next => ((), next)) := by
  rw [exportTable, run_get, Workspace.exportTable]
  cases w.load name with
  | error e => rfl
  | ok r => exact run_writeFile w path r.csv

end Session

end ExactAlgebra
