import ExactAlgebra.Proofs.Store.Act

/-!
# The most recent entries

What the history should be, without files and records: a list of entries with their pins, the newest
first, as a log of changes makes it. Entries are put in front, and only so many are kept. The log
has the latest change first.

## Main statements

* `sublist_kept` — the newest entries come first;
* `length_kept` — as many as there is room for;
* `IsLog.pinned_iff_odd` — the pins, by the number of changes;
* `not_mem_kept_iff` — how an entry disappears.

## Main definitions

* `History.Entry`, `History.Kept` — entries, and entries with their pins;
* `History.Change`, `History.Change.apply` — changes, and what they make of a list;
* `History.kept` — the list that a log makes;
* `History.byPin` — a list with the pinned entries first;
* `History.IsLog` — logs of changes that fit.
-/

namespace ExactAlgebra.History

/-! ## Entries and changes -/

/-- **A command with its answer**, as it is added. -/
structure Entry where
  stamp : Stamp
  real : stamp.epoch.IsReal
  command : String
  answer : String

/-- The id of an entry. -/
def Entry.id (e : Entry) : String :=
  e.stamp.id

/-- **An entry that is kept**, with its pin. -/
structure Kept where
  entry : Entry
  pinned : Bool

namespace Kept

/-- The id of an entry that is kept. -/
def id (k : Kept) : String :=
  k.entry.id

/-- The entry with its pin changed. -/
def flip (k : Kept) : Kept :=
  { k with pinned := ! k.pinned }

/-- The entry with its pin changed if it has a given id. -/
def flipIf (id : String) (k : Kept) : Kept :=
  if k.id = id then k.flip else k

theorem entry_flipIf (id : String) (k : Kept) : (k.flipIf id).entry = k.entry := by
  unfold flipIf
  split <;> rfl

end Kept

/-- **A change of the history.** -/
inductive Change where
  | add (e : Entry)
  | togglePin (id : String)
  | delete (id : String)
  | clear

namespace Change

/-- **What a change makes of a list**, with room for `limit` entries. -/
def apply (limit : ℕ) (before : List Kept) : Change → List Kept
  | add e => (⟨e, false⟩ :: before).take limit
  | togglePin id => before.map (·.flipIf id)
  | delete id => before.filter (·.id ≠ id)
  | clear => []

/-- The entry that a change adds. -/
def entry? : Change → Option Entry
  | add e => some e
  | _ => none

/-- The id of the entry whose pin is changed. -/
def toggled? : Change → Option String
  | togglePin id => some id
  | _ => none

end Change

/-- The entries that were added. -/
def added (log : List Change) : List Entry :=
  log.filterMap Change.entry?

/-- The ids of the entries whose pins were changed, once for every time. -/
def toggled (log : List Change) : List String :=
  log.filterMap Change.toggled?

/-- **The list that a log makes.** -/
def kept (limit : ℕ) : List Change → List Kept
  | [] => []
  | c :: earlier => c.apply limit (kept limit earlier)

example (a b c : Entry) :
    kept 2 [.add c, .togglePin a.id, .add b, .add a] = [⟨c, false⟩, Kept.flipIf a.id ⟨b, false⟩] :=
  rfl

variable {limit : ℕ} {log : List Change} {k : Kept}

/-! ## Order and room -/

theorem map_entry_flipIf (id : String) (before : List Kept) :
    (before.map (·.flipIf id)).map Kept.entry = before.map Kept.entry := by
  rw [List.map_map]
  exact List.map_congr_left fun k _ => k.entry_flipIf id

/-- **The newest entries come first**: what is kept are some of the entries that were added, in the
order of the log. -/
theorem sublist_kept (limit : ℕ) (log : List Change) :
    ((kept limit log).map Kept.entry).Sublist (added log) := by
  induction log with
  | nil => exact .slnil
  | cons c earlier ih =>
    rw [kept]
    cases c with
    | add e => exact ((List.take_sublist _ _).map _).trans (ih.cons_cons e)
    | togglePin id =>
      rw [Change.apply, map_entry_flipIf]
      exact ih
    | delete id => exact (List.filter_sublist.map _).trans ih
    | clear => exact List.nil_sublist _

theorem ids_kept_sublist (limit : ℕ) (log : List Change) :
    ((kept limit log).map Kept.id).Sublist ((added log).map Entry.id) := by
  have ids : (kept limit log).map Kept.id = ((kept limit log).map Kept.entry).map Entry.id := by
    rw [List.map_map]
    rfl
  rw [ids]
  exact (sublist_kept limit log).map _

/-- **There are never too many.** -/
theorem length_kept (limit : ℕ) (log : List Change) : (kept limit log).length ≤ limit := by
  induction log with
  | nil => exact Nat.zero_le _
  | cons c earlier ih =>
    rw [kept]
    cases c with
    | add e => exact List.length_take_le _ _
    | togglePin id =>
      rw [Change.apply, List.length_map]
      exact ih
    | delete id => exact (List.length_filter_le _ _).trans ih
    | clear => exact Nat.zero_le _

/-! ## Lists by pin -/

/-- **The list with the pinned entries first**, and otherwise in order. -/
def byPin (records : List Kept) : List Kept :=
  records.filter (·.pinned) ++ records.filter (! ·.pinned)

theorem pairwise_byPin (records : List Kept) :
    (byPin records).Pairwise fun k l => l.pinned = true → k.pinned = true := by
  have pinned : ∀ k ∈ records.filter (·.pinned), k.pinned = true := by
    intro k mem
    exact (List.mem_filter.mp mem).2
  have unpinned : ∀ k ∈ records.filter (! ·.pinned), k.pinned = false := by
    intro k mem
    simpa using (List.mem_filter.mp mem).2
  apply List.pairwise_append.mpr
  refine ⟨?_, ?_, ?_⟩
  · apply List.pairwise_of_forall_mem_list
    intro k mem _ _ _
    exact pinned k mem
  · apply List.pairwise_of_forall_mem_list
    intro _ _ l mem set
    rw [unpinned l mem] at set
    cases set
  · intro k mem _ _ _
    exact pinned k mem

/-- Among the pinned entries, and among the others, the order is as before. -/
theorem filter_byPin (records : List Kept) (pin : Bool) :
    (byPin records).filter (·.pinned = pin) = records.filter (·.pinned = pin) := by
  rw [byPin, List.filter_append, List.filter_filter, List.filter_filter]
  cases pin <;> simp

/-! ## Logs -/

/-- Whether a change adds none of some entries again. -/
def Change.IsNew (entries : List Entry) (c : Change) : Prop :=
  ∀ e, c = .add e → e.id ∉ entries.map Entry.id

theorem Change.isNew_reverse {entries : List Entry} {c : Change} :
    c.IsNew entries.reverse ↔ c.IsNew entries := by
  simp only [IsNew, List.map_reverse, List.mem_reverse]

/-- **Whether a change fits behind a log**: nothing is added twice, and pins are changed of entries
that are kept. -/
def Change.Fits (limit : ℕ) (log : List Change) : Change → Prop
  | add e => e.id ∉ (added log).map Entry.id
  | togglePin id => id ∈ (kept limit log).map Kept.id
  | delete _ => True
  | clear => True

/-- **A log of changes that fit**, each behind the ones before. -/
inductive IsLog (limit : ℕ) : List Change → Prop where
  | nil : IsLog limit []
  | cons {c : Change} {log : List Change} (earlier : IsLog limit log) (fits : c.Fits limit log) :
      IsLog limit (c :: log)

namespace IsLog

/-- Nothing was added twice. -/
theorem distinct_added (isLog : IsLog limit log) : ((added log).map Entry.id).Nodup := by
  induction isLog with
  | nil => exact List.nodup_nil
  | @cons c log _ fits ih =>
    cases c with
    | add e => exact List.nodup_cons.mpr ⟨fits, ih⟩
    | togglePin id => exact ih
    | delete id => exact ih
    | clear => exact ih

/-- **No entry is kept twice.** -/
theorem distinct_kept (isLog : IsLog limit log) : ((kept limit log).map Kept.id).Nodup :=
  (ids_kept_sublist limit log).nodup isLog.distinct_added

/-- Pins were changed of entries only that had been added. -/
theorem mem_added_of_toggled (isLog : IsLog limit log) {id : String} (mem : id ∈ toggled log) :
    id ∈ (added log).map Entry.id := by
  induction isLog with
  | nil => cases mem
  | @cons c log _ fits ih =>
    cases c with
    | add e => exact List.mem_cons_of_mem _ (ih mem)
    | togglePin other =>
      rcases List.mem_cons.mp mem with rfl | mem
      · exact (ids_kept_sublist limit log).subset fits
      · exact ih mem
    | delete other => exact ih mem
    | clear => exact ih mem

/-- **A pin is set if it was changed an odd number of times.** -/
theorem pinned_iff_odd (isLog : IsLog limit log) (mem : k ∈ kept limit log) :
    k.pinned = true ↔ Odd ((toggled log).count k.id) := by
  induction isLog generalizing k with
  | nil => cases mem
  | @cons c log earlier fits ih =>
    cases c with
    | add e =>
      rcases List.mem_cons.mp (List.mem_of_mem_take mem) with rfl | mem
      · -- the pin of a new entry has not been changed before
        have never : (toggled log).count e.id = 0 :=
          List.count_eq_zero.mpr fun mem => fits (earlier.mem_added_of_toggled mem)
        show false = true ↔ Odd ((toggled log).count e.id)
        simp [never]
      · exact ih mem
    | togglePin id =>
      obtain ⟨old, there, rfl⟩ := List.mem_map.mp mem
      have count : (toggled (.togglePin id :: log)).count old.id =
          (toggled log).count old.id + if id = old.id then 1 else 0 := by
        show (id :: toggled log).count old.id = _
        rw [List.count_cons]
        simp only [beq_iff_eq]
      have same : (old.flipIf id).id = old.id := congrArg Entry.id (old.entry_flipIf id)
      rw [same, count, Kept.flipIf]
      by_cases here : old.id = id
      · rw [if_pos here, if_pos here.symm, Nat.odd_add_one, ← ih there]
        simp [Kept.flip]
      · rw [if_neg here, if_neg (Ne.symm here), Nat.add_zero]
        exact ih there
    | delete id => exact ih (List.mem_of_mem_filter mem)
    | clear => cases mem

end IsLog

/-! ## What disappears -/

/-- An entry that was kept is still there behind a new one, unless it stood in the last place. -/
theorem mem_take_cons_iff {α : Type} {new x : α} {newer older : List α} (other : x ≠ new)
    (once : x ∉ newer) (limit : ℕ) :
    x ∈ (new :: (newer ++ x :: older)).take limit ↔ newer.length + 1 < limit := by
  have front : new :: (newer ++ x :: older) = (new :: newer) ++ x :: older := rfl
  rw [front, List.take_append, List.mem_append, List.length_cons]
  constructor
  · rintro (mem | mem)
    · exact absurd (List.mem_of_mem_take mem) (by simp [other, once])
    · by_contra full
      rw [Nat.sub_eq_zero_of_le (by omega)] at mem
      cases mem
  · intro room
    right
    obtain ⟨left, enough⟩ : ∃ left, limit - (newer.length + 1) = left + 1 :=
      ⟨limit - (newer.length + 1) - 1, by omega⟩
    rw [enough]
    exact List.mem_cons_self

/-- **The last one makes room** for a new one. -/
theorem not_mem_take_cons_iff {α : Type} {new x : α} {records : List α} {limit : ℕ}
    (other : x ≠ new) (distinct : records.Nodup) (mem : x ∈ records)
    (total : records.length ≤ limit) :
    x ∉ (new :: records).take limit ↔
      ∃ newer older, records = newer ++ x :: older ∧ newer.length + 1 = limit := by
  have gone {newer older : List α} (split : records = newer ++ x :: older) :
      x ∉ (new :: records).take limit ↔ newer.length + 1 = limit := by
    have once : x ∉ newer := by
      rw [split] at distinct
      intro again
      exact (List.nodup_append.mp distinct).2.2 x again x List.mem_cons_self rfl
    rw [split, List.length_append, List.length_cons] at total
    rw [split, mem_take_cons_iff other once]
    omega
  constructor
  · intro absent
    obtain ⟨newer, older, split⟩ := List.append_of_mem mem
    exact ⟨newer, older, split, (gone split).mp absent⟩
  · rintro ⟨newer, older, split, full⟩
    exact (gone split).mpr full

/-- An entry is left without the record of an id if that is not its own. -/
theorem mem_entries_filter_iff {records : List Kept} {id : String} {e : Entry}
    (mem : e ∈ records.map Kept.entry) :
    e ∈ (records.filter (·.id ≠ id)).map Kept.entry ↔ e.id ≠ id := by
  constructor
  · intro there
    obtain ⟨k, left, rfl⟩ := List.mem_map.mp there
    exact of_decide_eq_true (List.mem_filter.mp left).2
  · intro other
    obtain ⟨k, there, rfl⟩ := List.mem_map.mp mem
    exact List.mem_map_of_mem (List.mem_filter.mpr ⟨there, decide_eq_true other⟩)

/-- **An entry disappears** when it is deleted, when all entries are, or when another one is added
while it stands in the last place. -/
theorem not_mem_kept_iff (isLog : IsLog limit log) {c : Change} (fits : c.Fits limit log)
    {e : Entry} (mem : e ∈ (kept limit log).map Kept.entry) :
    e ∉ (kept limit (c :: log)).map Kept.entry ↔
      c = .delete e.id ∨ c = .clear ∨ (∃ new, c = .add new) ∧
        ∃ newer older, (kept limit log).map Kept.entry = newer ++ e :: older ∧
          newer.length + 1 = limit := by
  rw [kept]
  cases c with
  | add new =>
    have other : e ≠ new := by
      rintro rfl
      exact fits (List.mem_map_of_mem ((sublist_kept limit log).subset mem))
    have distinct : ((kept limit log).map Kept.entry).Nodup := by
      apply List.Nodup.of_map Entry.id
      rw [List.map_map]
      exact isLog.distinct_kept
    have total : ((kept limit log).map Kept.entry).length ≤ limit := by
      rw [List.length_map]
      exact length_kept limit log
    rw [Change.apply, List.map_take, List.map_cons,
      not_mem_take_cons_iff other distinct mem total]
    simp
  | togglePin id =>
    rw [Change.apply, map_entry_flipIf]
    simp [mem]
  | delete id =>
    rw [Change.apply, mem_entries_filter_iff mem, not_not]
    simp [eq_comm]
  | clear => simp [Change.apply]

end ExactAlgebra.History
