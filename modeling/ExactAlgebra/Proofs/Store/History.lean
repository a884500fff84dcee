import ExactAlgebra.Proofs.Store.Recent

/-!
# The history keeps what it is given

The history in the file of the database goes along with the list of the most recent entries: every
change of the one is a change of the other. So nothing is lost or put in another order but by the
changes that say so.

## Main statements

* `withoutId_json`, `toggleIn_json`, `recordsByPin_eq`, `findRecord_eq_ok_iff` — operations on the
  records of entries;
* `Follows.run` — one change;
* `history_is_kept` — any changes, from a workspace without history.

## Main definitions

* `Kept.json` — the record of an entry;
* `Change.perform`, `performAll` — changes of a workspace, with their log;
* `Stores` — entries that are in the history;
* `Follows` — a workspace whose history is what a log makes;
* `KeepsHistory` — what can be seen of the history.
-/

namespace ExactAlgebra.History

open Text
open Json (Members)

/-! ## Records -/

/-- **The record of an entry** with its pin. -/
def Kept.json (k : Kept) : Json :=
  .object [("id", .string k.id), ("command", .string k.entry.command),
    ("answer", .string k.entry.answer), ("timestamp", .string k.entry.stamp.timestamp),
    ("epoch", .float k.entry.stamp.epoch), ("pinned", .bool k.pinned)]

namespace Kept

theorem json_new (e : Entry) : json ⟨e, false⟩ = newRecord e.stamp e.command e.answer :=
  rfl

theorem hasId_json (id : String) (k : Kept) : hasId id k.json = .ok (k.id = id) := by
  show Except.ok (decide (some k.id = some id)) = _
  simp

theorem isPinned_json (k : Kept) : isPinned k.json = .ok k.pinned := by
  show Except.ok (Option.any Json.isTruthy (some (.bool k.pinned))) = _
  rfl

theorem flipPin_json (k : Kept) : Workspace.flipPin k.json = .ok (! k.pinned, k.flip.json) := by
  rw [Workspace.flipPin, isPinned_json]
  rfl

theorem idBeginning_json (start : String) (k : Kept) : idBeginning start k.json =
    .ok (if start.toList.isPrefixOf k.id.toList then some k.id else none) :=
  rfl

/-- **A record tells its entry.** -/
theorem entry_eq_of_json_eq {k l : Kept} (same : k.json = l.json) : k.entry = l.entry := by
  obtain ⟨⟨⟨id, timestamp, epoch⟩, _, command, answer⟩, _⟩ := k
  obtain ⟨⟨⟨id', timestamp', epoch'⟩, _, command', answer'⟩, _⟩ := l
  simp only [json, Kept.id, Entry.id, Json.object.injEq, List.cons.injEq, Prod.mk.injEq,
    Json.string.injEq, Json.float.injEq, true_and] at same
  obtain ⟨rfl, rfl, rfl, rfl, rfl, -⟩ := same
  rfl

end Kept

variable {records : List Kept}

theorem withoutId_json (id : String) (records : List Kept) :
    Workspace.withoutId id (records.map Kept.json) =
      .ok ((records.filter (·.id ≠ id)).map Kept.json) := by
  induction records with
  | nil => rfl
  | cons k rest ih =>
    rw [List.map_cons, Workspace.withoutId, Kept.hasId_json, bind_ok, ih, bind_ok]
    by_cases here : k.id = id
    · simp [here, pure_eq_ok]
    · simp [here, pure_eq_ok]

/-- Without an entry of that id, no pin is changed. -/
theorem map_flipIf_of_not_mem {id : String} (absent : id ∉ records.map Kept.id) :
    records.map (·.flipIf id) = records := by
  have same : ∀ k ∈ records, k.flipIf id = k := by
    intro k mem
    apply if_neg
    rintro rfl
    exact absent (List.mem_map_of_mem mem)
  exact (List.map_congr_left same).trans (List.map_id records)

/-- **The pin of an entry is changed**, and no other one. -/
theorem toggleIn_json {id : String} (distinct : (records.map Kept.id).Nodup)
    (mem : id ∈ records.map Kept.id) : ∃ pinned,
      Workspace.toggleIn id (records.map Kept.json) =
        .ok (pinned, (records.map (·.flipIf id)).map Kept.json) := by
  induction records with
  | nil => cases mem
  | cons k rest ih =>
    obtain ⟨once, others⟩ := List.nodup_cons.mp distinct
    rw [List.map_cons, List.map_cons, List.map_cons, Workspace.toggleIn, Kept.hasId_json, bind_ok]
    by_cases here : k.id = id
    · subst here
      refine ⟨! k.pinned, ?_⟩
      rw [decide_eq_true rfl, if_pos rfl, Kept.flipPin_json, map_flipIf_of_not_mem once,
        Kept.flipIf, if_pos rfl]
      rfl
    · have later : id ∈ rest.map Kept.id := (List.mem_cons.mp mem).resolve_left (Ne.symm here)
      obtain ⟨pinned, changed⟩ := ih others later
      refine ⟨pinned, ?_⟩
      rw [decide_eq_false here, if_neg Bool.false_ne_true, changed, Kept.flipIf, if_neg here]
      rfl

theorem toggleIn_json_of_not_mem {id : String} (absent : id ∉ records.map Kept.id) :
    Workspace.toggleIn id (records.map Kept.json) = .error (.noRecord id) := by
  induction records with
  | nil => rfl
  | cons k rest ih =>
    obtain ⟨other, later⟩ := not_or.mp (List.mem_cons.not.mp absent)
    rw [List.map_cons, Workspace.toggleIn, Kept.hasId_json, bind_ok,
      decide_eq_false (Ne.symm other), ih later]
    rfl

/-! ## Look-up -/

theorem withPins_json (records : List Kept) : Workspace.withPins (records.map Kept.json) =
    .ok (records.map fun k => (k.pinned, k.json)) := by
  induction records with
  | nil => rfl
  | cons k rest ih =>
    rw [List.map_cons, Workspace.withPins, Kept.isPinned_json, bind_ok, ih]
    rfl

theorem idsBeginning_json (start : String) (records : List Kept) :
    Workspace.idsBeginning start (records.map Kept.json) =
      .ok ((records.map Kept.id).filter (start.toList.isPrefixOf ·.toList)) := by
  induction records with
  | nil => rfl
  | cons k rest ih =>
    rw [List.map_cons, Workspace.idsBeginning, Kept.idBeginning_json, bind_ok, ih, bind_ok,
      pure_eq_ok, List.map_cons, List.filter_cons]
    split <;> rfl

variable {w : Workspace}

/-- **Pinned entries come first**, and the others behind them. -/
theorem recordsByPin_eq (stored : w.database.history = records.map Kept.json) :
    w.recordsByPin = .ok ((byPin records).map Kept.json) := by
  rw [byPin, Workspace.recordsByPin, stored, withPins_json, bind_ok, pure_eq_ok, List.filter_map,
    List.filter_map, List.map_map, List.map_map, List.map_append]
  rfl

/-- A list without repetitions has one member of a kind. -/
theorem filter_eq_singleton_iff {α : Type} {p : α → Bool} {xs : List α} (distinct : xs.Nodup)
    (x : α) : xs.filter p = [x] ↔ x ∈ xs ∧ p x = true ∧ ∀ y ∈ xs, p y = true → y = x := by
  constructor
  · intro only
    have here : x ∈ xs.filter p := only ▸ List.mem_singleton_self x
    refine ⟨(List.mem_filter.mp here).1, (List.mem_filter.mp here).2, ?_⟩
    intro y mem found
    have there : y ∈ xs.filter p := List.mem_filter.mpr ⟨mem, found⟩
    rw [only] at there
    exact List.mem_singleton.mp there
  · rintro ⟨mem, found, unique⟩
    have here : x ∈ xs.filter p := List.mem_filter.mpr ⟨mem, found⟩
    have same : ∀ y ∈ xs.filter p, y = x := by
      intro y there
      exact unique y (List.mem_filter.mp there).1 (List.mem_filter.mp there).2
    have copies := List.eq_replicate_of_mem same
    have once : (xs.filter p).length ≤ 1 := by
      have nodup := distinct.filter p
      rw [copies] at nodup
      exact List.nodup_replicate.mp nodup
    have length : (xs.filter p).length = 1 := by
      have := List.length_pos_of_mem here
      omega
    rw [copies, length]
    rfl

/-- **An id is found** by the beginning of no other one. -/
theorem findRecord_eq_ok_iff (stored : w.database.history = records.map Kept.json)
    (distinct : (records.map Kept.id).Nodup) (text id : String) :
    w.findRecord text = .ok id ↔ trim text ≠ "" ∧ id ∈ records.map Kept.id ∧
      (trim text).toList <+: id.toList ∧
        ∀ other ∈ records.map Kept.id, (trim text).toList <+: other.toList → other = id := by
  rw [Workspace.findRecord]
  by_cases blank : trim text = ""
  · rw [if_pos blank]
    constructor
    · intro found
      cases found
    · intro found
      exact absurd blank found.1
  · have only := filter_eq_singleton_iff
      (p := fun other => (trim text).toList.isPrefixOf other.toList) distinct id
    simp only [List.isPrefixOf_iff_prefix] at only
    rw [if_neg blank, stored, idsBeginning_json, bind_ok, ← only]
    constructor
    · intro found
      split at found
      · cases found
      · rename_i single
        obtain rfl := Except.ok.inj found
        exact ⟨blank, single⟩
      · cases found
    · rintro ⟨-, single⟩
      rw [single]
      rfl

/-! ## Changes -/

/-- A change as an act. -/
def Change.toAct : Change → Act
  | add e => .addRecord e.stamp e.real e.command e.answer
  | togglePin id => .togglePin id
  | delete id => .deleteRecord id
  | clear => .clearHistory

/-- **Carries out a change.** -/
def Change.perform (c : Change) : Session Unit :=
  c.toAct.perform

/-- **Carries out changes**, and notes those that succeed, the latest first. -/
def performAll (w : Workspace) (log : List Change) : List Change → Workspace × List Change
  | [] => (w, log)
  | c :: rest =>
    match Session.run c.perform w with
    | (.ok _, next) => performAll next (c :: log) rest
    | (.error _, next) => performAll next log rest

theorem Kept.isWellFormed_json (k : Kept) : k.json.IsWellFormed := by
  obtain ⟨e, pinned⟩ := k
  have new := isWellFormed_newRecord e.real e.command e.answer
  cases pinned with
  | false => exact new
  | true => exact Workspace.isWellFormed_flipPin new (flipPin_json ⟨e, false⟩)

/-- **A workspace whose history is what a log makes.** -/
structure Follows (limit : ℕ) (w : Workspace) (log : List Change) : Prop where
  limited : w.settings.value "history_limit" = .int limit
  stored : w.database.history = (kept limit log).map Kept.json
  isLog : IsLog limit log

namespace Follows

variable {limit : ℕ} {log : List Change}

/-- A history is stored, and read again with the settings as they were. -/
theorem keep (follows : Follows limit w log) {c : Change} (fits : c.Fits limit log)
    {history : List Json} (made : history = (kept limit (c :: log)).map Kept.json) :
    Follows limit (w.keep { w.database with history := history }) (c :: log) := by
  have wellFormed : ∀ record ∈ history, record.IsWellFormed := by
    intro record mem
    rw [made] at mem
    obtain ⟨k, -, rfl⟩ := List.mem_map.mp mem
    exact k.isWellFormed_json
  have read := w.database_keep (w.isSound_database.withHistory wellFormed)
  constructor
  · rw [Workspace.settings, read]
    exact follows.limited
  · rw [read]
    exact made
  · exact .cons follows.isLog fits

/-- **One change**: it changes the history as it changes the list, or there is no record whose pin
it could change. -/
theorem run (follows : Follows limit w log) {c : Change} (new : c.IsNew (added log)) :
    (c.Fits limit log ∧
      ∃ next, Session.run c.perform w = (.ok (), next) ∧ Follows limit next (c :: log)) ∨
    ∃ id, c = .togglePin id ∧ id ∉ (kept limit log).map Kept.id ∧
      Session.run c.perform w = (.error (.noRecord id), w) := by
  have stored := follows.stored
  cases c with
  | add e =>
    have fits : (Change.add e).Fits limit log := new e rfl
    refine .inl ⟨fits, _, ?_, follows.keep fits rfl⟩
    show Session.run (Session.addRecord e.stamp e.command e.answer) w = _
    rw [Session.run_addRecord, Workspace.addRecord_eq follows.limited, stored, ← Kept.json_new,
      ← List.map_cons, ← List.map_take]
    rfl
  | togglePin id =>
    show _ ∨ ∃ _, _ ∧ _ ∧ Session.run (do let _ ← Session.togglePin id) w = _
    by_cases there : id ∈ (kept limit log).map Kept.id
    · obtain ⟨pinned, toggled⟩ := toggleIn_json follows.isLog.distinct_kept there
      have fits : (Change.togglePin id).Fits limit log := there
      refine .inl ⟨fits, _, ?_, follows.keep fits rfl⟩
      show Session.run (do let _ ← Session.togglePin id) w = _
      rw [Session.run_discard, Session.run_togglePin, Workspace.togglePin, stored, toggled]
      rfl
    · refine .inr ⟨id, rfl, there, ?_⟩
      rw [Session.run_discard, Session.run_togglePin, Workspace.togglePin, stored,
        toggleIn_json_of_not_mem there]
      rfl
  | delete id =>
    have fits : (Change.delete id).Fits limit log := trivial
    refine .inl ⟨fits, _, ?_, follows.keep fits rfl⟩
    show Session.run (Session.deleteRecord id) w = _
    rw [Session.run_deleteRecord, Workspace.deleteRecord, stored, withoutId_json]
    rfl
  | clear =>
    have fits : Change.clear.Fits limit log := trivial
    exact .inl ⟨fits, _, rfl, follows.keep fits rfl⟩

/-- **Any changes.** -/
theorem performAll (follows : Follows limit w log) {changes : List Change}
    (distinct : ((added changes).map Entry.id ++ (added log).map Entry.id).Nodup) :
    Follows limit (performAll w log changes).1 (performAll w log changes).2 ∧
      added (History.performAll w log changes).2 = (added changes).reverse ++ added log := by
  -- along the changes, with the workspace and the log that the ones before have left
  induction changes generalizing w log with
  | nil => exact ⟨follows, rfl⟩
  | cons c rest ih =>
    have new : c.IsNew (added log) := by
      rintro e rfl mem
      exact (List.nodup_append.mp distinct).2.2 e.id List.mem_cons_self e.id mem rfl
    rw [History.performAll]
    obtain ⟨-, next, done, later⟩ | ⟨id, rfl, -, failed⟩ := follows.run new
    · rw [done]
      cases c with
      | add e =>
        obtain ⟨reached, entries⟩ := ih later (List.perm_middle.nodup_iff.mpr distinct)
        refine ⟨reached, ?_⟩
        show added (History.performAll next _ rest).2 = (e :: added rest).reverse ++ added log
        rw [entries, List.reverse_cons, List.append_assoc]
        rfl
      | togglePin id => exact ih later distinct
      | delete id => exact ih later distinct
      | clear => exact ih later distinct
    · rw [failed]
      exact ih follows distinct

end Follows

/-! ## What can be seen -/

/-- Whether the record of an entry is stored, pinned or not. -/
def Stores (w : Workspace) (e : Entry) : Prop :=
  ∃ pinned, Kept.json ⟨e, pinned⟩ ∈ w.database.history

theorem stores_iff (stored : w.database.history = records.map Kept.json) {e : Entry} :
    Stores w e ↔ e ∈ records.map Kept.entry := by
  rw [Stores, stored]
  constructor
  · rintro ⟨pinned, mem⟩
    obtain ⟨k, there, same⟩ := List.mem_map.mp mem
    obtain rfl : k.entry = e := Kept.entry_eq_of_json_eq same
    exact List.mem_map_of_mem there
  · intro mem
    obtain ⟨k, there, rfl⟩ := List.mem_map.mp mem
    exact ⟨k.pinned, List.mem_map_of_mem there⟩

/-- **A history that keeps what it is given.** The entries are those that were added, the first one
first; the log has the changes that succeeded. -/
structure KeepsHistory (limit : ℕ) (entries : List Entry) (log : List Change) (w : Workspace)
    (records : List Kept) : Prop where
  /-- The records are those of entries with their pins. -/
  stored : w.database.history = records.map Kept.json
  /-- The newest entries come first. -/
  newestFirst : (records.map Kept.entry).Sublist entries.reverse
  /-- There is one record for each entry. -/
  distinct : (records.map Kept.id).Nodup
  /-- There are never too many. -/
  room : records.length ≤ limit
  /-- An entry is pinned if its pin was changed an odd number of times. -/
  pinned : ∀ k ∈ records, k.pinned = true ↔ Odd ((toggled log).count k.id)
  /-- The history lists all records, those that are pinned first, and otherwise in order. -/
  listed : ∃ shown : List Kept,
    Session.run Session.showHistory w = (.ok (shown.map Kept.json), w) ∧
      shown.Pairwise (fun k l => l.pinned = true → k.pinned = true) ∧
        ∀ pin, shown.filter (·.pinned = pin) = records.filter (·.pinned = pin)
  /-- An id is found by the beginning of no other one. -/
  found : ∀ text id, Session.run (Session.findRecord text) w = (.ok id, w) ↔
    trim text ≠ "" ∧ id ∈ records.map Kept.id ∧ (trim text).toList <+: id.toList ∧
      ∀ other ∈ records.map Kept.id, (trim text).toList <+: other.toList → other = id
  /-- A change fails only if there is no record whose pin it could change. -/
  refused : ∀ c : Change, c.IsNew entries → ∀ e,
    (Session.run c.perform w).1 = .error e ↔
      ∃ id, c = .togglePin id ∧ id ∉ records.map Kept.id ∧ e = .noRecord id
  /-- An entry disappears when it is deleted, when all entries are, or when one is added while so
  many newer ones are stored that it stands in the last place. -/
  disappears : ∀ c : Change, c.IsNew entries → ∀ e, Stores w e →
    (¬ Stores (Session.run c.perform w).2 e ↔
      c = .delete e.id ∨ c = .clear ∨ (∃ new, c = .add new) ∧
        ∃ newer older, records.map Kept.entry = newer ++ e :: older ∧ newer.length + 1 = limit)

namespace Follows

variable {limit : ℕ} {log : List Change} {entries : List Entry}

theorem refused_iff (follows : Follows limit w log) {c : Change} (new : c.IsNew (added log))
    (e : Error) : (Session.run c.perform w).1 = .error e ↔
      ∃ id, c = .togglePin id ∧ id ∉ (kept limit log).map Kept.id ∧ e = .noRecord id := by
  obtain ⟨fits, next, done, -⟩ | ⟨id, rfl, absent, failed⟩ := follows.run new
  · rw [done]
    constructor
    · intro failed
      cases failed
    · rintro ⟨id, rfl, absent, -⟩
      exact absurd fits absent
  · rw [failed]
    constructor
    · intro same
      exact ⟨id, rfl, absent, (Except.error.inj same).symm⟩
    · rintro ⟨other, same, -, rfl⟩
      rw [Change.togglePin.inj same]

theorem disappears_iff (follows : Follows limit w log) {c : Change} (new : c.IsNew (added log))
    {e : Entry} (stores : Stores w e) : ¬ Stores (Session.run c.perform w).2 e ↔
      c = .delete e.id ∨ c = .clear ∨ (∃ new, c = .add new) ∧
        ∃ newer older, (kept limit log).map Kept.entry = newer ++ e :: older ∧
          newer.length + 1 = limit := by
  have mem := (stores_iff follows.stored).mp stores
  obtain ⟨fits, next, done, later⟩ | ⟨id, rfl, absent, failed⟩ := follows.run new
  · rw [done, stores_iff later.stored]
    exact not_mem_kept_iff follows.isLog fits mem
  · rw [failed]
    simp [stores]

theorem keepsHistory (follows : Follows limit w log) (same : added log = entries.reverse) :
    KeepsHistory limit entries log w (kept limit log) where
  stored := follows.stored
  newestFirst := same ▸ sublist_kept limit log
  distinct := follows.isLog.distinct_kept
  room := length_kept limit log
  pinned _ mem := follows.isLog.pinned_iff_odd mem
  listed := by
    refine ⟨byPin (kept limit log), ?_, pairwise_byPin _, filter_byPin _⟩
    rw [Session.run_showHistory, recordsByPin_eq follows.stored]
    rfl
  found := by
    intro text id
    rw [Session.run_findRecord, ← findRecord_eq_ok_iff follows.stored follows.isLog.distinct_kept]
    cases w.findRecord text <;> simp [Workspace.whole, Except.map]
  refused := by
    intro c new e
    exact follows.refused_iff (same ▸ Change.isNew_reverse.mpr new) e
  disappears := by
    intro c new e stores
    exact follows.disappears_iff (same ▸ Change.isNew_reverse.mpr new) stores

end Follows

/-- **The history is kept** over any changes, from a workspace without history. -/
theorem history_is_kept {w : Workspace} {limit : ℕ} {changes : List Change}
    (limited : w.settings.value "history_limit" = .int limit) (empty : w.database.history = [])
    (distinct : ((added changes).map Entry.id).Nodup) :
    KeepsHistory limit (added changes) (performAll w [] changes).2 (performAll w [] changes).1
      (kept limit (performAll w [] changes).2) := by
  have start : Follows limit w [] := ⟨limited, empty, .nil⟩
  obtain ⟨follows, same⟩ := start.performAll (by simpa [added] using distinct)
  exact follows.keepsHistory (same.trans (List.append_nil _))

/-- An entry with a given id. -/
def sample (id : String) : Entry where
  stamp := ⟨id, "2024-05-01 12:00:00", .finite false 1714557600⟩
  real := by
    show Binary64.nearest? 1714557600 = some 1714557600
    decide +kernel
  command := "simplify 1+1"
  answer := "2"

/-- A workspace with room for two entries. -/
def roomForTwo : Workspace :=
  Workspace.empty.saveSettings (.object [("history_limit", .int 2)])

theorem database_roomForTwo : roomForTwo.database =
    { Database.empty with settings := .object [("history_limit", .int 2)] } := by
  have settings : Members.IsWellFormed [("history_limit", .int 2)] :=
    Members.isWellFormed_nil.put "history_limit" (.int 2)
  exact Workspace.empty.database_keep (Database.isSound_empty.withSettings settings)

/-- The first of three entries is pinned, and leaves the history nevertheless. -/
theorem history_is_kept_sample :
    let changes := [.add (sample "a"), .togglePin "a", .add (sample "b"), .add (sample "c")]
    roomForTwo.settings.value "history_limit" = .int 2 ∧ roomForTwo.database.history = [] ∧
      ((added changes).map Entry.id).Nodup ∧
        KeepsHistory 2 (added changes) (performAll roomForTwo [] changes).2
          (performAll roomForTwo [] changes).1
          (kept 2 (performAll roomForTwo [] changes).2) := by
  intro changes
  have limited : roomForTwo.settings.value "history_limit" = .int 2 := by
    rw [Workspace.settings, database_roomForTwo]
    rfl
  have empty : roomForTwo.database.history = [] := by
    rw [database_roomForTwo]
    rfl
  have distinct : ((added changes).map Entry.id).Nodup := by
    show ["a", "b", "c"].Nodup
    decide
  exact ⟨limited, empty, distinct, history_is_kept limited empty distinct⟩

end ExactAlgebra.History
