import ExactAlgebra.Numbered.Cofactor
import ExactAlgebra.Proofs.Elimination.Replay
import ExactAlgebra.Proofs.Error.Run
import ExactAlgebra.Proofs.Matrix.Entry
import Mathlib.Data.List.FinRange

/-!
# Loops over numbers that are in range

A loop over the row numbers of a grid asks for rows that are there, so none of its checks fails, and
it does what a loop over the rows themselves does. These are the laws for the kinds of loops, and for
matrices that are written entry by entry.

## Main statements

* `foldlM_map_ok`, `findM?_map_ok`, `mapM_name_ok` — loops none of whose steps fails;
* `range_eq`, `range_val`, `between_eq` — the numbers of the rows of a grid;
* `Mat.set_val` — what is written at a number in range;
* `Numbered.foldlM_writeEntry`, `Numbered.build_ok` — matrices that are written entry by entry.

## Main definitions

* `Grid.write` — an entry that is written.
-/

namespace ExactAlgebra

/-! ## Loops -/

section Loops

variable {α β σ τ : Type}

/-- **A loop none of whose steps fails.** `state` and `name` say which states and members of the
checked loop belong to those of the other one. -/
theorem foldlM_map_ok {step : σ → α → Except Error σ} {next : τ → β → τ} (state : τ → σ)
    (name : β → α) {xs : List β}
    (one : ∀ x ∈ xs, ∀ t, step (state t) (name x) = .ok (state (next t x))) (t : τ) :
    (xs.map name).foldlM step (state t) = .ok (state (xs.foldl next t)) := by
  induction xs generalizing t with
  | nil => rfl
  | cons x rest ih =>
    obtain ⟨here, there⟩ := List.forall_mem_cons.mp one
    rw [List.map_cons, List.foldlM_cons, here, bind_ok, List.foldl_cons]
    exact ih there _

/-- A search none of whose tests fails. -/
theorem findM?_map_ok {test : α → Except Error Bool} {p : β → Bool} (name : β → α) {xs : List β}
    (one : ∀ x ∈ xs, test (name x) = .ok (p x)) :
    (xs.map name).findM? test = .ok ((xs.find? p).map name) := by
  induction xs with
  | nil => rfl
  | cons x rest ih =>
    obtain ⟨here, there⟩ := List.forall_mem_cons.mp one
    rw [List.map_cons, List.findM?, here, bind_ok, List.find?_cons]
    cases p x with
    | true => rfl
    | false => exact ih there

/-- Results none of which is refused. -/
theorem mapM_name_ok {f : α → Except Error σ} {g : β → σ} (name : β → α) {xs : List β}
    (one : ∀ x ∈ xs, f (name x) = .ok (g x)) : (xs.map name).mapM f = .ok (xs.map g) := by
  refine mapM_of_forall₂ ?_
  rw [List.forall₂_map_left_iff, List.forall₂_map_right_iff]
  exact List.forall₂_same.mpr one

end Loops

variable {m n : Nat}

theorem range_eq (n : Nat) : List.range n = (List.finRange n).map Fin.val :=
  List.map_coe_finRange_eq_range.symm

theorem between_eq (first m : Nat) :
    between first m = ((List.finRange m).filter (first ≤ ·.val)).map Fin.val := by
  rw [between, range_eq, List.filter_map]
  rfl

/-- The numbers of the rows above a given one. -/
theorem range_val (i : Fin m) :
    List.range i.val = ((List.finRange m).filter (· < i)).map Fin.val := by
  have split : (List.range m).filter (· < i.val) = List.range i.val := by
    have parts : List.range m = List.range i.val ++ (List.range (m - i.val)).map (i.val + ·) := by
      rw [← List.range_add, Nat.add_sub_cancel' i.isLt.le]
    rw [parts, List.filter_append, List.filter_eq_self.mpr (by simp),
      List.filter_eq_nil_iff.mpr (by simp), List.append_nil]
  rw [← split, range_eq, List.filter_map]
  rfl

theorem memberAt_ok {α : Type} {xs : List α} {i : Nat} {x : α} (found : xs[i]? = some x) :
    memberAt xs i = .ok x := by
  rw [memberAt, found]

/-! ## Checks that are passed -/

namespace Mat

theorem checkSquare_self (operation : String) (g : Grid n n) :
    checkSquare operation ⟨n, n, g⟩ = .ok () :=
  if_pos (decide_eq_true rfl)

theorem set_val (g : Grid m n) (i : Fin m) (j : Fin n) (q : ℚ) :
    set ⟨m, n, g⟩ (i.val : Int) (j.val : Int) (.number q) = .ok ⟨m, n, g.setEntry i j q⟩ := by
  rw [set, rowIndex_val, bind_ok, columnIndex_val]
  rfl

end Mat

/-! ## Entry by entry -/

/-- **A grid with an entry that is written**: its place, and its value. -/
def Grid.write (g : Grid m n) (entry : (Fin m × Fin n) × ℚ) : Grid m n :=
  g.setEntry entry.1.1 entry.1.2 entry.2

namespace Grid

variable {f : Fin m → Fin n → ℚ}

theorem entry_setEntry (g : Grid m n) (i k : Fin m) (j l : Fin n) (q : ℚ) :
    (g.setEntry i j q).entry k l = if (i, j) = (k, l) then q else g.entry k l := by
  rw [setEntry, entry_setRow]
  by_cases row : k = i
  · subst row
    by_cases column : j = l
    · subst column
      simp
    · have apart : j.val ≠ l.val := Fin.val_ne_of_ne column
      simp [column, apart, entry]
  · have apart : (i, j) ≠ (k, l) := fun same => row (Prod.mk.inj same).1.symm
    rw [if_neg row, if_neg apart]

/-- **A grid that is written entry by entry**, with values that agree where a place is written
twice. Where nothing is written, it stays as it was. -/
theorem foldl_write {entries : List ((Fin m × Fin n) × ℚ)}
    (agree : ∀ entry ∈ entries, f entry.1.1 entry.1.2 = entry.2) {g : Grid m n}
    (other : ∀ i j, (∀ entry ∈ entries, entry.1 ≠ (i, j)) → g.entry i j = f i j) :
    entries.foldl write g = ofEntries f := by
  induction entries generalizing g with
  | nil =>
    refine ext_entries fun i j => ?_
    rw [entry_ofEntries]
    exact other i j fun entry mem => absurd mem List.not_mem_nil
  | cons first rest ih =>
    obtain ⟨here, there⟩ := List.forall_mem_cons.mp agree
    refine ih there fun i j unwritten => ?_
    rw [write, entry_setEntry]
    by_cases same : first.1 = (i, j)
    · rw [if_pos same, ← here, same]
    · rw [if_neg same]
      exact other i j (List.forall_mem_cons.mpr ⟨same, unwritten⟩)

end Grid

namespace Numbered

/-- An entry that is there can be written, once its value has been computed. -/
theorem writeEntry_val (g : Grid m n) (i : Fin m) (j : Fin n) {value : Except Error ℚ} {q : ℚ}
    (computed : value = .ok q) :
    writeEntry ⟨m, n, g⟩ i.val j.val value = .ok ⟨m, n, g.write ((i, j), q)⟩ := by
  rw [writeEntry, computed, bind_ok, Mat.set_val]
  rfl

/-- **A loop each of whose steps writes some entries** ends with the grid that has all of these, and
agrees with the first one wherever nothing is written. -/
theorem foldlM_writeEntries {α β : Type} {step : Mat → α → Except Error Mat} {name : β → α}
    {entries : β → List ((Fin m × Fin n) × ℚ)} {xs : List β}
    (one : ∀ x ∈ xs, ∀ g : Grid m n,
      step ⟨m, n, g⟩ (name x) = .ok ⟨m, n, (entries x).foldl Grid.write g⟩)
    {g result : Grid m n}
    (agree : ∀ x ∈ xs, ∀ entry ∈ entries x, result.entry entry.1.1 entry.1.2 = entry.2)
    (other : ∀ i j, (∀ x ∈ xs, ∀ entry ∈ entries x, entry.1 ≠ (i, j)) →
      g.entry i j = result.entry i j) :
    (xs.map name).foldlM step ⟨m, n, g⟩ = .ok ⟨m, n, result⟩ := by
  have written : (xs.map name).foldlM step ⟨m, n, g⟩ = .ok _ := foldlM_map_ok (Mat.mk m n) name one g
  have whole : (xs.flatMap entries).foldl Grid.write g = Grid.ofEntries result.entry := by
    refine Grid.foldl_write ?_ ?_
    · intro entry mem
      obtain ⟨x, mem, inside⟩ := List.mem_flatMap.mp mem
      exact agree x mem entry inside
    · intro i j unwritten
      refine other i j fun x mem entry inside => ?_
      exact unwritten entry (List.mem_flatMap.mpr ⟨x, mem, inside⟩)
  rw [List.foldl_flatMap] at whole
  rw [written, whole]
  congr 2
  exact Grid.ext_entries fun i j => Grid.entry_ofEntries _ i j

/-- The same if each step writes one entry. -/
theorem foldlM_writeEntry {α β : Type} {step : Mat → α → Except Error Mat} {name : β → α}
    {entry : β → (Fin m × Fin n) × ℚ} {xs : List β}
    (one : ∀ x ∈ xs, ∀ g : Grid m n, step ⟨m, n, g⟩ (name x) = .ok ⟨m, n, g.write (entry x)⟩)
    {g result : Grid m n} (agree : ∀ x ∈ xs, result.entry (entry x).1.1 (entry x).1.2 = (entry x).2)
    (other : ∀ i j, (∀ x ∈ xs, (entry x).1 ≠ (i, j)) → g.entry i j = result.entry i j) :
    (xs.map name).foldlM step ⟨m, n, g⟩ = .ok ⟨m, n, result⟩ :=
  have alone (x : β) (mem : x ∈ xs) : ∀ written ∈ [entry x],
      result.entry written.1.1 written.1.2 = written.2 :=
    List.forall_mem_singleton.mpr (agree x mem)
  foldlM_writeEntries one alone fun i j unwritten =>
    other i j fun x mem => unwritten x mem _ List.mem_cons_self

/-- **A matrix that is computed entry by entry** has these entries, in whatever order they are
computed. -/
theorem build_ok {order : List (Nat × Nat)} (places : List (Fin m × Fin n))
    (numbers : order = places.map fun place => (place.1.val, place.2.val))
    (complete : ∀ place, place ∈ places) {value : Nat → Nat → Except Error ℚ}
    {f : Fin m → Fin n → ℚ} (computed : ∀ (i : Fin m) (j : Fin n), value i.val j.val = .ok (f i j)) :
    build m n order value = .ok ⟨m, n, Grid.ofEntries f⟩ := by
  rw [build, numbers]
  refine foldlM_writeEntry (fun place _ g =>
    writeEntry_val g place.1 place.2 (computed place.1 place.2)) ?_ ?_
  · intro place _
    exact Grid.entry_ofEntries f place.1 place.2
  · intro i j unwritten
    exact absurd rfl (unwritten _ (complete (i, j)))

/-- The places of a grid, row by row. -/
theorem places_eq (m n : Nat) :
    places m n = ((List.finRange m).product (List.finRange n)).map
      fun place => (place.1.val, place.2.val) := by
  simp only [places, range_eq, List.flatMap_map, List.product, List.map_flatMap, List.map_map,
    Function.comp_def]

theorem mem_product_finRange (place : Fin m × Fin n) :
    place ∈ (List.finRange m).product (List.finRange n) :=
  List.mem_product.mpr ⟨List.mem_finRange _, List.mem_finRange _⟩

/-- **Rows become columns.** -/
theorem transpose_ok (g : Grid m n) : transpose ⟨m, n, g⟩ = .ok ⟨n, m, g.transpose⟩ := by
  refine build_ok (((List.finRange m).product (List.finRange n)).map Prod.swap) ?_ ?_
    fun i j => Mat.get_val g j i
  · rw [places_eq]
    simp [Function.comp_def]
  · intro place
    exact List.mem_map.mpr ⟨place.swap, mem_product_finRange _, Prod.swap_swap _⟩

end Numbered

end ExactAlgebra
