import ExactAlgebra.Proofs.Elimination.Echelon
import ExactAlgebra.System.Basic

/-!
# Pivots and free columns

The solver of linear systems reads the pivots of a reduced grid off again, as the list of the
leading columns of its rows. In an echelon form the rows without an entry are the last ones, so the
place of a column in that list is the number of its row. The other columns are the free ones, and
there are as many of them as columns beyond the rank.

## Main statements

* `pivotRow?_eq_some_iff`, `pivotRow?_eq_none_iff` — the row that is found for a column;
* `mem_freeColumns_iff` — the free columns;
* `freeCount_add_rank` — how many of them there are.

## Main definitions

* `freeColumn` — the free column with a given number.
-/

namespace ExactAlgebra

open Matrix

variable {m n : Nat}

/-! ## Leading columns -/

/-- Where a partial function is undefined at the end of a list only, its values keep their
places. -/
theorem getElem?_filterMap_of_last {α β : Type} (f : α → Option β) (l : List α)
    (last : l.Pairwise fun x y => f x = none → f y = none) (k : Nat) :
    (l.filterMap f)[k]? = l[k]?.bind f := by
  induction l generalizing k with
  | nil => rfl
  | cons x rest ih =>
    obtain ⟨here, there⟩ := List.pairwise_cons.mp last
    cases value : f x with
    | none =>
      have none_left : rest.filterMap f = [] :=
        List.filterMap_eq_nil_iff.mpr fun y mem => here y mem value
      rw [List.filterMap_cons_none value, none_left]
      cases k with
      | zero => simp [value]
      | succ k =>
        rw [List.getElem?_cons_succ, List.getElem?_nil, eq_comm, Option.bind_eq_none_iff]
        exact fun y found => here y (List.mem_of_getElem? found) value
    | some v =>
      rw [List.filterMap_cons_some value]
      cases k with
      | zero => simp [value]
      | succ k => exact ih there k

namespace Grid

variable {g : Grid m n}

/-- Two rows of an echelon form have different leading columns. -/
theorem leadingColumn?_injective (echelon : g.toMatrix.IsRowEchelon) {i k : Fin m} {c : Fin n}
    (hi : g.leadingColumn? i = some c) (hk : g.leadingColumn? k = some c) : i = k := by
  rw [leadingColumn?_eq_some_iff] at hi hk
  rcases lt_trichotomy i k with lower | same | lower
  · exact absurd (echelon lower hi.1) hk.2
  · exact same
  · exact absurd (echelon lower hk.1) hi.2

theorem mem_leadingColumns_iff (g : Grid m n) (c : Fin n) :
    c ∈ Mat.leadingColumns ⟨m, n, g⟩ ↔ ∃ i, g.leadingColumn? i = some c := by
  simp [Mat.leadingColumns]

/-- **The leading columns of an echelon form stand at the places of their rows.** -/
theorem getElem?_leadingColumns (echelon : g.toMatrix.IsRowEchelon) (k : Nat) :
    (Mat.leadingColumns ⟨m, n, g⟩)[k]? = (List.finRange m)[k]?.bind g.leadingColumn? := by
  refine getElem?_filterMap_of_last _ _ ?_ k
  refine (List.pairwise_lt_finRange m).imp fun {i k} lower none => ?_
  rw [leadingColumn?_eq_none_iff] at none ⊢
  exact fun j => congrFun (echelon.row_eq_zero_of_lt lower (funext none)) j

theorem getElem?_leadingColumns_eq_some_iff (echelon : g.toMatrix.IsRowEchelon) (k : Nat)
    (c : Fin n) : (Mat.leadingColumns ⟨m, n, g⟩)[k]? = some c ↔
      ∃ inside : k < m, g.leadingColumn? ⟨k, inside⟩ = some c := by
  rw [getElem?_leadingColumns echelon]
  by_cases inside : k < m
  · simp [inside]
  · simp [inside]

/-- The leading columns of an echelon form are all different. -/
theorem nodup_leadingColumns (echelon : g.toMatrix.IsRowEchelon) :
    (Mat.leadingColumns ⟨m, n, g⟩).Nodup := by
  refine List.Nodup.filterMap ?_ (List.nodup_finRange m)
  intro i k c hi hk
  exact leadingColumn?_injective echelon hi hk

/-- There are as many leading columns as rows that are not zero. -/
theorem length_leadingColumns (g : Grid m n) :
    (Mat.leadingColumns ⟨m, n, g⟩).length = nonzeroRows g := by
  rw [Mat.leadingColumns, List.length_filterMap_eq_countP, nonzeroRows, List.countP_eq_length_filter]
  congr 2
  funext i
  rw [Bool.eq_iff_iff, Bool.not_eq_true', ← Bool.not_eq_true, isZeroRow_iff,
    ← leadingColumn?_eq_none_iff, Option.isSome_iff_ne_none]

end Grid

/-! ## The row of a pivot -/

section Pivot

variable {g : Grid m n} (echelon : g.toMatrix.IsRowEchelon)

include echelon

/-- **The row that is found for a column** is the one with its leading entry there. -/
theorem pivotRow?_eq_some_iff (c : Fin n) (k : Nat) :
    pivotRow? (Mat.leadingColumns ⟨m, n, g⟩) c = some k ↔
      ∃ inside : k < m, g.leadingColumn? ⟨k, inside⟩ = some c := by
  rw [← Grid.getElem?_leadingColumns_eq_some_iff echelon, pivotRow?,
    List.findIdx?_eq_some_iff_getElem]
  simp only [decide_eq_true_eq]
  constructor
  · rintro ⟨inside, here, _⟩
    exact List.getElem?_eq_some_iff.mpr ⟨inside, here⟩
  · intro found
    obtain ⟨inside, here⟩ := List.getElem?_eq_some_iff.mp found
    refine ⟨inside, here, fun j lt same => ?_⟩
    have := (Grid.nodup_leadingColumns echelon).getElem_inj_iff.mp (same.trans here.symm)
    omega

theorem pivotRow?_of_leading {i : Fin m} {c : Fin n} (leading : g.leadingColumn? i = some c) :
    pivotRow? (Mat.leadingColumns ⟨m, n, g⟩) c = some i.val :=
  (pivotRow?_eq_some_iff echelon c i).mpr ⟨i.isLt, leading⟩

omit echelon in
theorem pivotRow?_eq_none_iff (c : Fin n) :
    pivotRow? (Mat.leadingColumns ⟨m, n, g⟩) c = none ↔ ∀ i, g.leadingColumn? i ≠ some c := by
  rw [pivotRow?, List.findIdx?_eq_none_iff]
  constructor
  · intro absent i leading
    simpa using absent c ((g.mem_leadingColumns_iff c).mpr ⟨i, leading⟩)
  · intro absent c' mem
    obtain ⟨i, leading⟩ := (g.mem_leadingColumns_iff c').mp mem
    rw [decide_eq_false_iff_not]
    rintro rfl
    exact absent i leading

end Pivot

/-! ## Free columns -/

/-- **A column is free if no row leads there.** -/
theorem mem_freeColumns_iff (g : Grid m n) (c : Fin n) :
    c ∈ freeColumns ⟨m, n, g⟩ ↔ ∀ i, g.leadingColumn? i ≠ some c := by
  rw [freeColumns, List.mem_filter, decide_eq_true_eq, g.mem_leadingColumns_iff]
  simp [List.mem_finRange]

theorem nodup_freeColumns (g : Grid m n) : (freeColumns ⟨m, n, g⟩).Nodup :=
  (List.nodup_finRange n).filter _

/-- The number of free columns. -/
def freeCount (g : Grid m n) : Nat :=
  (freeColumns ⟨m, n, g⟩).length

/-- The free column with a given number. -/
def freeColumn (g : Grid m n) (k : Fin (freeCount g)) : Fin n :=
  (freeColumns ⟨m, n, g⟩)[k]

theorem freeColumn_free (g : Grid m n) (k : Fin (freeCount g)) (i : Fin m) :
    g.leadingColumn? i ≠ some (freeColumn g k) :=
  (mem_freeColumns_iff g _).mp (List.getElem_mem k.isLt) i

theorem exists_freeColumn {g : Grid m n} {c : Fin n} (free : ∀ i, g.leadingColumn? i ≠ some c) :
    ∃ k, freeColumn g k = c := by
  obtain ⟨k, inside, here⟩ := List.getElem_of_mem ((mem_freeColumns_iff g c).mpr free)
  exact ⟨⟨k, inside⟩, here⟩

theorem freeColumn_injective (g : Grid m n) : Function.Injective (freeColumn g) := by
  intro k l same
  exact Fin.ext ((nodup_freeColumns g).getElem_inj_iff.mp same)

/-- **There are as many free columns as columns beyond the rank.** -/
theorem freeCount_add_rank {g : Grid m n} (echelon : g.toMatrix.IsRowEchelon) :
    freeCount g + g.toMatrix.rank = n := by
  have split := (List.finRange n).length_eq_length_filter_add
    fun j => decide (j ∉ Mat.leadingColumns ⟨m, n, g⟩)
  have leading : ((List.finRange n).filter
      fun j => !decide (j ∉ Mat.leadingColumns ⟨m, n, g⟩)).length = g.toMatrix.rank := by
    rw [← Grid.nonzeroRows_eq_rank g echelon, ← g.length_leadingColumns]
    refine List.Perm.length_eq ?_
    refine (List.perm_ext_iff_of_nodup ((List.nodup_finRange n).filter _)
      (Grid.nodup_leadingColumns echelon)).mpr fun j => ?_
    simp
  rw [List.length_finRange, leading] at split
  exact split.symm

/-- A sum over the free columns in the order of their list. -/
theorem sum_freeColumn (g : Grid m n) (value : Fin n → ℚ) :
    ∑ k, value (freeColumn g k) = ∑ j with ∀ i, g.leadingColumn? i ≠ some j, value j := by
  refine Finset.sum_bij (fun k _ => freeColumn g k) ?_ ?_ ?_ fun _ _ => rfl
  · intro k _
    simpa using freeColumn_free g k
  · intro k _ l _ same
    exact freeColumn_injective g same
  · intro j mem
    obtain ⟨k, here⟩ := exists_freeColumn (g := g) (by simpa using mem)
    exact ⟨k, Finset.mem_univ k, here⟩

end ExactAlgebra
