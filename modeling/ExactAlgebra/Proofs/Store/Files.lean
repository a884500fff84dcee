import ExactAlgebra.Proofs.Error.Run
import ExactAlgebra.Store.Workspace

/-!
# Files read back

A path leads to the same place whatever files there are, as long as it leads anywhere. What is
written to a file is read from it by the same path, except for the null device, which keeps nothing;
and only a path to the database changes the database.

## Main statements

* `ofPath_congr` — a place does not depend on the files;
* `read_writeFile` — what was written is read;
* `store_writeFile` — the database file behind it.

## Main definitions

* `Workspace.LeadsToFile` — a path to a file apart from the database and the null device.
-/

namespace ExactAlgebra

open Text

/-! ## Places -/

namespace Place

theorem enter_congr {isFile other : String → Bool} {path part : String} {place next : Place}
    (entered : enter isFile path place part = .ok next) :
    enter other path place part = .ok next := by
  cases place with
  | file name => cases entered
  | directory name => exact entered

/-- **A path that leads anywhere** leads to the same place whatever files there are. -/
theorem ofPath_congr {isFile : String → Bool} (other : String → Bool) {path : String}
    {place : Place} (found : ofPath isFile path = .ok place) : ofPath other path = .ok place := by
  have walk (parts : List String) (begin : Place)
      (walked : parts.foldlM (enter isFile path) begin = .ok place) :
      parts.foldlM (enter other path) begin = .ok place := by
    induction parts generalizing begin with
    | nil => exact walked
    | cons part parts ih =>
      rw [List.foldlM_cons] at walked ⊢
      obtain ⟨next, entered, walked⟩ := ok_of_bind walked
      rw [enter_congr entered]
      exact ih next walked
  unfold ofPath at found ⊢
  split at found
  · cases found
  · rename_i noNull
    rw [if_neg noNull]
    split at found
    · cases found
    · rename_i nonempty
      rw [if_neg nonempty]
      split at found
      · cases found
      · rename_i short
        rw [if_neg short]
        exact walk _ _ found

end Place

namespace Workspace

/-! ## Files -/

theorem fileText?_putFile (name key content : String) (files : List (String × String)) :
    fileText? key (putFile name content files) =
      if key = name then some content else fileText? key files := by
  induction files with
  | nil => simp [putFile, fileText?, eq_comm]
  | cons file rest ih =>
    simp only [fileText?] at ih ⊢
    rw [putFile]
    split
    · rename_i here
      simp only [List.find?_cons, here]
      by_cases same : name = key
      · simp [same]
      · simp [same, Ne.symm same]
    · rename_i other
      rw [List.find?_cons, List.find?_cons]
      by_cases same : file.1 = key
      · have different : key ≠ name := same ▸ other
        simp [same, different]
      · simpa [same] using ih

/-- **A path to a file** apart from the database and the null device. -/
def LeadsToFile (w : Workspace) (path : String) : Prop :=
  ∃ name, w.place path = .ok (.file name) ∧ name ≠ nullDevice ∧
    (name = storeName → fileText? name w.files ≠ none)

variable {w next : Workspace} {path content : String}

theorem writeFile_ok (written : w.writeFile path content = .ok next) :
    ∃ name, w.place path = .ok (.file name) ∧ Place.wantsDirectory path = false ∧
      next = w.putText name content := by
  obtain ⟨place, found, written⟩ := ok_of_bind written
  split at written
  · cases written
  · rename_i name
    split at written
    · cases written
    · rename_i noDirectory
      exact ⟨name, found, by simpa using noDirectory, (Except.ok.inj written).symm⟩

/-- **What was written is read**, whatever the database is then. -/
theorem read_writeFile (leads : w.LeadsToFile path) (written : w.writeFile path content = .ok next)
    {later : Workspace} (same : later.files = next.files) : later.read path = .ok content := by
  obtain ⟨name, found, noDirectory, rfl⟩ := writeFile_ok written
  obtain ⟨given, leads, notNull, notStore⟩ := leads
  obtain rfl : name = given := by
    rw [found] at leads
    exact Place.file.inj (Except.ok.inj leads)
  rw [putText, if_neg (fun both => notStore both.1 both.2), if_neg notNull] at same
  have kept : fileText? name later.files = some content := by
    rw [same, fileText?_putFile, if_pos rfl]
  have placed : later.place path = .ok (.file name) := by
    rw [place] at leads ⊢
    -- a path may now be a known file by itself, and otherwise it leads there as it did before
    by_cases whole : path = name
    · rw [whole, if_pos (by rw [kept]; rfl)]
    · have absent : fileText? path w.files = none := by
        by_contra known
        rw [if_pos (Option.isSome_iff_ne_none.mpr known)] at leads
        exact whole (Place.file.inj (Except.ok.inj leads))
      rw [absent, if_neg (by simp)] at leads
      rw [same, fileText?_putFile, if_neg whole, absent, if_neg (by simp)]
      exact Place.ofPath_congr _ leads
  have content : later.content? name = some content := by rw [content?, kept]
  rw [Workspace.read, placed]
  simp only [bind, Except.bind, content, noDirectory]
  rfl

/-- **The database file behind a file that was written**: only a path to it changes it. -/
theorem store_writeFile (written : w.writeFile path content = .ok next) :
    next.store = w.store ∨ next.store = .text content := by
  obtain ⟨name, -, -, rfl⟩ := writeFile_ok written
  rw [putText]
  split
  · exact .inr rfl
  · split <;> exact .inl rfl

end Workspace

end ExactAlgebra
