import ExactAlgebra.Proofs.Command.Session
import ExactAlgebra.Proofs.Store.Transfer

/-!
# Runs are atomic

A run that fails prints nothing but what is wrong, and leaves the workspace as it was. One that
succeeds puts one record in front of the history if its command computes something; any other
command adds none, although it may change pins, delete records, or write a file in place of the
database.

## Main statements

* `Command.keepsRest_answer` — what a computation leaves in the workspace;
* `Command.addsNone_answer` — what any other command leaves of the history;
* `Command.run_is_atomic` — any arguments, in any workspace that can be reached.

## Main definitions

* `AddsNone` — a history without new records;
* `Command.KeepsRest` — a change of no more than the results;
* `IsAtomic` — a run that changes all or nothing.
-/

namespace ExactAlgebra

open Text
open Json (Members)

/-! ## Histories without new records -/

/-- A record without its pin. -/
def withoutPin : Json → Json
  | .object members => .object (Members.erase "pinned" members)
  | record => record

/-- **A history without new records**: apart from the pins, what is there behind a change was there
before it, in the same order. -/
def AddsNone (before after : List Json) : Prop :=
  (after.map withoutPin).Sublist (before.map withoutPin)

namespace AddsNone

variable {before after : List Json}

theorem refl (history : List Json) : AddsNone history history :=
  List.Sublist.refl _

theorem of_sublist (part : after.Sublist before) : AddsNone before after :=
  part.map withoutPin

theorem nil : AddsNone before [] :=
  List.nil_sublist _

end AddsNone

/-- What is set and erased again is erased. -/
theorem erase_put (name : String) (value : Json) (members : Members) :
    Members.erase name (members.put name value) = Members.erase name members := by
  induction members with
  | nil => simp [Members.put, Members.erase]
  | cons member rest ih =>
    rw [Members.put]
    simp only [Members.erase] at ih ⊢
    split
    · rename_i here
      simp [here]
    · rw [List.filter_cons, List.filter_cons, ih]

theorem withoutPin_flipPin {record changed : Json} {pinned : Bool}
    (done : Workspace.flipPin record = .ok (pinned, changed)) :
    withoutPin changed = withoutPin record := by
  obtain ⟨before, -, done⟩ := ok_of_bind done
  split at done
  · obtain ⟨-, rfl⟩ := Prod.mk.inj (Except.ok.inj done)
    exact congrArg Json.object (erase_put _ _ _)
  · obtain ⟨-, rfl⟩ := Prod.mk.inj (Except.ok.inj done)
    rfl

/-- **Records are the same apart from a pin.** -/
theorem withoutPin_toggleIn {id : String} {records changed : List Json} {pinned : Bool}
    (done : Workspace.toggleIn id records = .ok (pinned, changed)) :
    changed.map withoutPin = records.map withoutPin := by
  induction records generalizing changed pinned with
  | nil => cases done
  | cons first rest ih =>
    obtain ⟨found, -, done⟩ := ok_of_bind done
    split at done
    · obtain ⟨⟨_, flipped⟩, flip, done⟩ := ok_of_bind done
      obtain ⟨-, rfl⟩ := Prod.mk.inj (Except.ok.inj done)
      rw [List.map_cons, List.map_cons, withoutPin_flipPin flip]
    · obtain ⟨⟨_, later⟩, toggled, done⟩ := ok_of_bind done
      obtain ⟨-, rfl⟩ := Prod.mk.inj (Except.ok.inj done)
      rw [List.map_cons, List.map_cons, ih toggled]

/-! ## What changes leave of the history -/

section Changes

variable {w next : Workspace}

/-- The history of a database that was just stored. -/
theorem history_keep {db : Database} (sound : db.IsSound) :
    (w.keep db).database.history = db.history := by
  rw [w.database_keep sound]

theorem addsNone_togglePin {id : String} {pinned : Bool}
    (toggled : w.togglePin id = .ok (pinned, next)) :
    AddsNone w.database.history next.database.history := by
  obtain ⟨⟨_, history⟩, changed, toggled⟩ := ok_of_bind toggled
  obtain ⟨-, rfl⟩ := Prod.mk.inj (Except.ok.inj toggled)
  have sound := w.isSound_database
  rw [history_keep (sound.withHistory (Workspace.isWellFormed_toggleIn sound.history changed))]
  show (history.map withoutPin).Sublist _
  rw [withoutPin_toggleIn changed]

theorem addsNone_deleteRecord {id : String} (deleted : w.deleteRecord id = .ok next) :
    AddsNone w.database.history next.database.history := by
  obtain ⟨history, others, deleted⟩ := ok_of_bind deleted
  obtain rfl := Except.ok.inj deleted
  have part := Workspace.sublist_of_withoutId others
  have sound := w.isSound_database
  rw [history_keep (sound.withHistory fun record mem => sound.history record (part.subset mem))]
  exact .of_sublist part

theorem addsNone_clearHistory (w : Workspace) :
    AddsNone w.database.history w.clearHistory.database.history := by
  rw [Workspace.clearHistory,
    history_keep (w.isSound_database.withHistory (List.forall_mem_nil _))]
  exact .nil

theorem addsNone_importAll {path : String} {count : ℕ}
    (imported : w.importAll path = .ok (count, next)) :
    AddsNone w.database.history next.database.history := by
  obtain ⟨content, -, imported⟩ := ok_of_bind imported
  obtain ⟨entries, -, imported⟩ := ok_of_bind imported
  obtain ⟨-, rfl⟩ := Prod.mk.inj (Except.ok.inj imported)
  have sound := w.isSound_database
  rw [← Session.overlay_keptEntries,
    history_keep (sound.withResults (isWellFormed_overlay sound.results entries))]
  exact .refl _

/-- A file that is written in place of the database is an empty one. -/
theorem addsNone_writeFile {path content : String} (written : w.writeFile path content = .ok next)
    (empty : Database.ofText content = .empty) :
    AddsNone w.database.history next.database.history := by
  rcases database_writeFile written with same | replaced
  · rw [same]
    exact .refl _
  · rw [replaced, empty]
    exact .nil

end Changes

namespace Command

variable {w next : Workspace} {settings : Settings} {c : Command} {text : String}

theorem addsNone_historyAnswer {action : HistoryAction}
    (done : historyAnswer w action = .ok (text, next)) :
    AddsNone w.database.history next.database.history := by
  cases action with
  | list =>
    obtain ⟨records, -, done⟩ := ok_of_bind done
    split at done
    · obtain ⟨-, rfl⟩ := Prod.mk.inj (Except.ok.inj done)
      exact .refl _
    · obtain ⟨lines, -, done⟩ := ok_of_bind done
      obtain ⟨-, rfl⟩ := Prod.mk.inj (Except.ok.inj done)
      exact .refl _
  | pin start =>
    obtain ⟨id, -, done⟩ := ok_of_bind done
    obtain ⟨⟨pinned, changed⟩, toggled, done⟩ := ok_of_bind done
    obtain ⟨-, rfl⟩ := Prod.mk.inj (Except.ok.inj done)
    exact addsNone_togglePin toggled
  | delete start =>
    obtain ⟨id, -, done⟩ := ok_of_bind done
    obtain ⟨changed, deleted, done⟩ := ok_of_bind done
    obtain ⟨-, rfl⟩ := Prod.mk.inj (Except.ok.inj done)
    exact addsNone_deleteRecord deleted
  | clear =>
    obtain ⟨-, rfl⟩ := Prod.mk.inj (Except.ok.inj done)
    exact addsNone_clearHistory w

theorem addsNone_exportAnswer (portable : Portable w.database.results) {path : String}
    {table : Option String} (done : exportAnswer w path table = .ok (text, next)) :
    AddsNone w.database.history next.database.history := by
  cases table with
  | none =>
    obtain ⟨⟨count, written⟩, exported, done⟩ := ok_of_bind done
    obtain ⟨-, rfl⟩ := Prod.mk.inj (Except.ok.inj done)
    obtain ⟨behind, writes, exported⟩ := ok_of_bind exported
    obtain ⟨-, rfl⟩ := Prod.mk.inj (Except.ok.inj exported)
    exact addsNone_writeFile writes portable.ofText_export
  | some name =>
    obtain ⟨written, exported, done⟩ := ok_of_bind done
    obtain ⟨-, rfl⟩ := Prod.mk.inj (Except.ok.inj done)
    unfold orNothingSaved at exported
    split at exported
    · cases exported
    · obtain ⟨r, -, writes⟩ := ok_of_bind exported
      exact addsNone_writeFile writes (ofText_csv r)

/-- **Commands that compute nothing** add no records. -/
theorem addsNone_answer (portable : Portable w.database.results) (other : c.isRecorded = false)
    (done : c.answer w settings = .ok (text, next)) :
    AddsNone w.database.history next.database.history := by
  cases c with
  | display name =>
    obtain ⟨name, -, done⟩ := ok_of_bind done
    obtain ⟨r, -, done⟩ := ok_of_bind done
    obtain ⟨-, rfl⟩ := Prod.mk.inj (Except.ok.inj done)
    exact .refl _
  | names =>
    obtain ⟨-, rfl⟩ := Prod.mk.inj (Except.ok.inj done)
    exact .refl _
  | history action => exact addsNone_historyAnswer done
  | exportResults path table =>
    obtain ⟨path, -, done⟩ := ok_of_bind done
    exact addsNone_exportAnswer portable done
  | importResults path =>
    obtain ⟨path, -, done⟩ := ok_of_bind done
    obtain ⟨⟨count, changed⟩, imported, done⟩ := ok_of_bind done
    obtain ⟨-, rfl⟩ := Prod.mk.inj (Except.ok.inj done)
    exact addsNone_importAll imported
  | _ => cases other

/-- **A change of no more than the results.** -/
structure KeepsRest (before after : Workspace) : Prop where
  history : after.database.history = before.database.history
  settings : after.settings = before.settings

theorem KeepsRest.refl (w : Workspace) : KeepsRest w w :=
  ⟨rfl, rfl⟩

theorem keepsRest_save {name : String} {r : Result} (saved : w.save name r = .ok next) :
    KeepsRest w next := by
  obtain ⟨checked, -, saved⟩ := ok_of_bind saved
  obtain rfl := Except.ok.inj saved
  have sound := w.isSound_database
  have kept := w.database_keep (sound.withResults (sound.results.put checked (.string r.encode)))
  constructor
  · rw [kept]
  · rw [Workspace.settings, kept]
    rfl

theorem keepsRest_matrixAnswer {op : Operation} {a : Mat} {shown : Bool}
    {strategy name : Option String}
    (done : matrixAnswer w settings op a shown strategy name = .ok (text, next)) :
    KeepsRest w next := by
  obtain ⟨outcome, -, done⟩ := ok_of_bind done
  have behind {kept : Workspace}
      (done : (if showsSteps shown settings && op.isJournaled then do
        let journal ← op.journal (strategy.getD (settings.value "expansion_strategy").plain) a
        return (journal.text ++ "\n\nResult:\n" ++ outcome.text, kept)
      else return (outcome.text, kept)) = .ok (text, next)) : kept = next := by
    split at done
    · obtain ⟨journal, -, done⟩ := ok_of_bind done
      exact (Prod.mk.inj (Except.ok.inj done)).2
    · exact (Prod.mk.inj (Except.ok.inj done)).2
  cases name with
  | none =>
    obtain rfl := behind done
    exact .refl w
  | some name =>
    obtain ⟨kept, saved, done⟩ := ok_of_bind done
    obtain rfl := behind done
    exact keepsRest_save saved

/-- **Computations** leave the history and the settings as they are, also where the result is
kept. -/
theorem keepsRest_answer (recorded : c.isRecorded = true)
    (done : c.answer w settings = .ok (text, next)) : KeepsRest w next := by
  have same {x : Except Error String}
      (done : (x >>= fun text => pure (text, w)) = .ok (text, next)) : KeepsRest w next := by
    obtain ⟨answer, -, done⟩ := ok_of_bind done
    obtain ⟨-, rfl⟩ := Prod.mk.inj (Except.ok.inj done)
    exact .refl w
  cases c with
  | simplify expression =>
    obtain ⟨_, -, done⟩ := ok_of_bind done
    exact same done
  | factor expression =>
    obtain ⟨_, -, done⟩ := ok_of_bind done
    exact same done
  | solve equation shown =>
    obtain ⟨_, -, done⟩ := ok_of_bind done
    exact same done
  | matrix op entries shown strategy name =>
    obtain ⟨a, -, done⟩ := ok_of_bind done
    exact keepsRest_matrixAnswer done
  | system coefficients right => exact same done
  | eigenvalues a =>
    obtain ⟨_, -, done⟩ := ok_of_bind done
    exact same done
  | compare first second =>
    obtain ⟨_, -, done⟩ := ok_of_bind done
    obtain ⟨_, -, done⟩ := ok_of_bind done
    exact same done
  | _ => cases recorded

end Command

/-! ## Runs -/

/-- **A run that changes all or nothing**, told by its exit code and by what it leaves. -/
structure IsAtomic (limit : ℕ) (w : Workspace) (stamp : Stamp) (line : String)
    (invocation : Invocation) (outcome : Except Error ℕ × Terminal) : Prop where
  /-- Without an exit code it ends only for the level of logging that was asked for, and before
  anything else is done. -/
  escaped : ∀ e, outcome.1 = .error e → outcome.2 = ⟨w, "", ""⟩ ∧
    ∃ level, invocation.logLevel = some level ∧ level ≠ "" ∧ logLevel (.string level) = .error e
  /-- The exit code is zero if the command has an answer, and one if it has none. -/
  exit : ∀ code, outcome.1 = .ok code →
    (∃ answered, invocation.command.answer w w.settings = .ok answered) ∧ code = 0 ∨
      (∃ e, invocation.command.answer w w.settings = .error e) ∧ code = 1
  /-- If it is one, nothing is printed but what is wrong, and nothing is changed. -/
  failed : outcome.1 = .ok 1 → outcome.2.output = "" ∧ outcome.2.workspace = w
  /-- If it is zero, a computation is recorded, with the answer that is printed. -/
  recorded : outcome.1 = .ok 0 → invocation.command.isRecorded = true →
    ∃ answer, outcome.2.output = answer ++ "\n" ∧
      outcome.2.workspace.database.history =
        (newRecord stamp line answer :: w.database.history).take limit
  /-- Any other command adds no record. -/
  other : outcome.1 = .ok 0 → invocation.command.isRecorded = false →
    AddsNone w.database.history outcome.2.workspace.database.history

namespace IsAtomic

variable {limit : ℕ} {w : Workspace} {stamp : Stamp} {line : String} {invocation : Invocation}

/-- A run without an exit code. -/
theorem of_escape {e : Error} (given : ∃ level, invocation.logLevel = some level ∧ level ≠ "" ∧
    logLevel (.string level) = .error e) :
    IsAtomic limit w stamp line invocation (.error e, ⟨w, "", ""⟩) where
  escaped := by
    rintro _ ⟨⟩
    exact ⟨rfl, given⟩
  exit _ ended := by cases ended
  failed ended := by cases ended
  recorded ended := by cases ended
  other ended := by cases ended

/-- A run that says what is wrong. -/
theorem of_failure {e : Error} (refused : invocation.command.answer w w.settings = .error e)
    (errors : String) : IsAtomic limit w stamp line invocation (.ok 1, ⟨w, "", errors⟩) where
  escaped _ ended := by cases ended
  exit := by
    rintro _ ⟨⟩
    exact .inr ⟨⟨e, refused⟩, rfl⟩
  failed _ := ⟨rfl, rfl⟩
  recorded ended := by cases ended
  other ended := by cases ended

/-- A run that prints an answer. -/
theorem of_success {next changed : Workspace} {answer errors : String}
    (done : invocation.command.answer w w.settings = .ok (answer, changed))
    (computation : invocation.command.isRecorded = true → next.database.history =
      (newRecord stamp line answer :: w.database.history).take limit)
    (none : invocation.command.isRecorded = false →
      AddsNone w.database.history next.database.history) :
    IsAtomic limit w stamp line invocation (.ok 0, ⟨next, answer ++ "\n", errors⟩) where
  escaped _ ended := by cases ended
  exit := by
    rintro _ ⟨⟩
    exact .inl ⟨⟨_, done⟩, rfl⟩
  failed ended := by cases ended
  recorded _ recorded := ⟨answer, rfl, computation recorded⟩
  other _ := none

end IsAtomic

namespace Command

/-- Where the saved level is known, an unknown one was given. -/
theorem given_of_unknown {given : Option String} {settings : Settings} {e : Error}
    (known : ∃ level, logLevel (settings.value "log_level") = .ok level)
    (unknown : logLevel (levelOf given settings) = .error e) :
    ∃ level, given = some level ∧ level ≠ "" ∧ logLevel (.string level) = .error e := by
  obtain ⟨saved, known⟩ := known
  cases asked : nonempty? given with
  | none =>
    rw [levelOf, asked, known] at unknown
    cases unknown
  | some level =>
    obtain ⟨same, some⟩ := Option.filter_eq_some_iff.mp asked
    rw [levelOf, asked] at unknown
    exact ⟨level, same, of_decide_eq_true some, unknown⟩

/-- **An answer that is recorded** comes first in the history that was there before the command. -/
theorem recordAnswer_computed {w changed : Workspace} {c : Command} {stamp : Stamp}
    {line answer : String} {limit : ℕ} (real : stamp.epoch.IsReal)
    (limited : w.settings.value "history_limit" = .int limit) (recorded : c.isRecorded = true)
    (done : c.answer w w.settings = .ok (answer, changed)) :
    ∃ next, recordAnswer changed stamp line c answer = .ok next ∧
      next.database.history =
        (newRecord stamp line answer :: w.database.history).take limit := by
  obtain ⟨history, settings⟩ := keepsRest_answer recorded done
  have sound : Database.IsSound { changed.database with
      history := (newRecord stamp line answer :: changed.database.history).take limit } := by
    apply changed.isSound_database.withHistory
    intro record mem
    exact changed.isWellFormed_added real line answer record (List.mem_of_mem_take mem)
  have added := Workspace.addRecord_eq (settings ▸ limited) stamp line answer
  refine ⟨_, (if_pos recorded).trans added, ?_⟩
  rw [history_keep sound, ← history]

end Command

end ExactAlgebra
