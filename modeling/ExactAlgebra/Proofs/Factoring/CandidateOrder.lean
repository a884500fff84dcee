import ExactAlgebra.Proofs.Equation.Roots
import ExactAlgebra.Proofs.Factoring.RationalRoots
import Mathlib.Data.List.Sort
import Mathlib.Data.Prod.Lex

/-!
# The candidates in order

The candidates for rational roots are fractions of divisors. They can be listed in two ways. One is to
go through all pairs of divisors, to leave out what has come before, and to sort by a key that puts
whole numbers first and then looks at the numerator. The other is to write them down in that order,
each in lowest terms. Both lists are the same: they are sorted, and since sorting is stable, they only
have to agree on the fractions of each key. A fraction comes first where it is in lowest terms, so
these are, for one numerator, the fractions in lowest terms with it, by their denominators.

So no candidate is listed twice, and the rational roots among them come in this order.

## Main statements

* `mergeSort_eq_of_keys` — a stable sort is known by the members of each key;
* `filter_fractions`, `filter_collected` — the candidates of each key, in both lists;
* `mergeSort_collected` — both lists are the same;
* `Poly.rationalRoots_complete` — all rational roots, each once and in order.

## Main definitions

* `addNew` — a member is added to a list unless it is there;
* `rank` — the key;
* `collected` — the fractions of divisors, each where it comes first;
* `row` — the fractions in lowest terms with one numerator.
-/

namespace ExactAlgebra

/-! ## Sorting by keys -/

section Keys

variable {α κ : Type} [LinearOrder κ] {key : α → κ} {l m : List α}

/-- A key that occurs in one list occurs in any list with the same members of each key. -/
theorem mem_of_filter_key (same : ∀ k, l.filter (key · = k) = m.filter (key · = k)) {a : α}
    (mem : a ∈ l) : a ∈ m := by
  have here : a ∈ l.filter (key · = key a) := List.mem_filter.mpr ⟨mem, decide_eq_true rfl⟩
  rw [same] at here
  exact (List.mem_filter.mp here).1

/-- **A sorted list is known by the members of each key.** -/
theorem eq_of_filter_key (sorted : l.Pairwise (key · ≤ key ·)) (sorted' : m.Pairwise (key · ≤ key ·))
    (same : ∀ k, l.filter (key · = k) = m.filter (key · = k)) : l = m := by
  induction l generalizing m with
  | nil =>
    refine (List.eq_nil_iff_forall_not_mem.mpr fun b mem => ?_).symm
    exact List.not_mem_nil (mem_of_filter_key (fun k => (same k).symm) mem)
  | cons a l ih =>
    cases m with
    | nil => exact absurd (mem_of_filter_key same List.mem_cons_self) List.not_mem_nil
    | cons b m =>
      obtain ⟨first, tail⟩ := List.pairwise_cons.mp sorted
      obtain ⟨first', tail'⟩ := List.pairwise_cons.mp sorted'
      -- each of the first members is somewhere in the other list, so neither key is below the other
      have level : key a = key b := by
        apply le_antisymm
        · rcases List.mem_cons.mp (mem_of_filter_key (fun k => (same k).symm) List.mem_cons_self) with
            rfl | later
          · exact le_rfl
          · exact first b later
        · rcases List.mem_cons.mp (mem_of_filter_key same List.mem_cons_self) with rfl | later
          · exact le_rfl
          · exact first' a later
      have front := same (key a)
      have left : (a :: l).filter (key · = key a) = a :: l.filter (key · = key a) :=
        List.filter_cons_of_pos (decide_eq_true rfl)
      have right : (b :: m).filter (key · = key a) = b :: m.filter (key · = key a) :=
        List.filter_cons_of_pos (decide_eq_true level.symm)
      rw [left, right] at front
      obtain ⟨rfl, rest⟩ := List.cons.inj front
      refine congrArg (a :: ·) (ih tail tail' fun k => ?_)
      by_cases here : key a = k
      · rw [← here]
        exact rest
      · have others := same k
        rwa [List.filter_cons_of_neg (by simpa using here),
          List.filter_cons_of_neg (by simpa using here)] at others

theorem key_trans (a b c : α) (first : decide (key a ≤ key b) = true)
    (second : decide (key b ≤ key c) = true) : decide (key a ≤ key c) = true :=
  decide_eq_true ((of_decide_eq_true first).trans (of_decide_eq_true second))

theorem key_total (a b : α) : (decide (key a ≤ key b) || decide (key b ≤ key a)) = true := by
  simpa using le_total (key a) (key b)

/-- **Sorting keeps the members of a key** in their order. -/
theorem filter_mergeSort_key (l : List α) (k : κ) :
    (l.mergeSort fun a b => decide (key a ≤ key b)).filter (key · = k) = l.filter (key · = k) := by
  have sublist : (l.filter (key · = k)).Sublist (l.mergeSort fun a b => decide (key a ≤ key b)) := by
    refine List.sublist_mergeSort key_trans key_total ?_ List.filter_sublist
    refine List.pairwise_of_forall_mem_list fun a mem b mem' => decide_eq_true ?_
    have left := of_decide_eq_true (List.mem_filter.mp mem).2
    have right := of_decide_eq_true (List.mem_filter.mp mem').2
    exact (left.trans right.symm).le
  have filtered := sublist.filter (key · = k)
  rw [List.filter_filter] at filtered
  simp only [Bool.and_self] at filtered
  refine (filtered.eq_of_length ?_).symm
  exact ((List.mergeSort_perm l _).filter _).length_eq.symm

/-- **A stable sort is known by the members of each key.** -/
theorem mergeSort_eq_of_keys (sorted : m.Pairwise (key · ≤ key ·))
    (same : ∀ k, l.filter (key · = k) = m.filter (key · = k)) :
    (l.mergeSort fun a b => decide (key a ≤ key b)) = m := by
  refine eq_of_filter_key ?_ sorted fun k => (filter_mergeSort_key l k).trans (same k)
  exact (List.pairwise_mergeSort key_trans key_total l).imp of_decide_eq_true

end Keys

/-! ## First occurrences -/

section New

variable {α : Type} [DecidableEq α]

/-- **A member is added at the end** of a list, unless it is there. -/
def addNew (found : List α) (a : α) : List α :=
  if a ∈ found then found else found ++ [a]

theorem nodup_foldl_addNew {found : List α} (nodup : found.Nodup) (l : List α) :
    (l.foldl addNew found).Nodup := by
  induction l generalizing found with
  | nil => exact nodup
  | cons a l ih =>
    rw [List.foldl_cons, addNew]
    split
    · exact ih nodup
    · rename_i new
      apply ih
      simpa [List.nodup_append] using ⟨nodup, fun b mem same => new (same ▸ mem)⟩

/-- What is there already is not added. -/
theorem foldl_addNew_of_mem {found l : List α} (old : ∀ a ∈ l, a ∈ found) : l.foldl addNew found = found := by
  induction l with
  | nil => rfl
  | cons a l ih =>
    obtain ⟨first, old⟩ := List.forall_mem_cons.mp old
    rw [List.foldl_cons, addNew, if_pos first, ih old]

/-- What is new is added. -/
theorem foldl_addNew_of_nodup {found l : List α} (nodup : (found ++ l).Nodup) :
    l.foldl addNew found = found ++ l := by
  induction l generalizing found with
  | nil => exact (List.append_nil found).symm
  | cons a l ih =>
    have new : a ∉ found := fun mem =>
      (List.nodup_append.mp nodup).2.2 a mem a List.mem_cons_self rfl
    rw [List.append_cons] at nodup ⊢
    rw [List.foldl_cons, addNew, if_neg new, ih nodup]

/-- Some members of a list are added as if they were alone. -/
theorem filter_foldl_addNew (p : α → Bool) (found l : List α) :
    (l.foldl addNew found).filter p = (l.filter p).foldl addNew (found.filter p) := by
  induction l generalizing found with
  | nil => rfl
  | cons a l ih =>
    rw [List.foldl_cons, ih]
    by_cases kept : p a = true
    · have step : (addNew found a).filter p = addNew (found.filter p) a := by
        by_cases old : a ∈ found
        · rw [addNew, addNew, if_pos old, if_pos (List.mem_filter.mpr ⟨old, kept⟩)]
        · rw [addNew, addNew, if_neg old, if_neg fun mem => old (List.mem_filter.mp mem).1,
            List.filter_append, List.filter_cons_of_pos kept, List.filter_nil]
      rw [List.filter_cons_of_pos kept, List.foldl_cons, step]
    · have step : (addNew found a).filter p = found.filter p := by
        rw [addNew]
        split
        · rfl
        · rw [List.filter_append, List.filter_cons_of_neg kept, List.filter_nil, List.append_nil]
      rw [List.filter_cons_of_neg kept, step]

/-- A list with one member that is mapped to something. -/
theorem flatMap_ite_eq {β : Type} {l : List α} (nodup : l.Nodup) (a : α) (x : List β) :
    (l.flatMap fun b => if b = a then x else []) = if a ∈ l then x else [] := by
  induction l with
  | nil => rfl
  | cons b l ih =>
    obtain ⟨new, nodup⟩ := List.nodup_cons.mp nodup
    rw [List.flatMap_cons, ih nodup]
    by_cases here : b = a
    · subst here
      simp [new]
    · simp [here, Ne.symm here]

omit [DecidableEq α] in
/-- What some members of a list are mapped to. -/
theorem flatMap_filter {β : Type} (p : α → Bool) (f : α → List β) (l : List α) :
    (l.filter p).flatMap f = l.flatMap fun a => if p a then f a else [] := by
  induction l with
  | nil => rfl
  | cons a l ih =>
    rw [List.filter_cons, List.flatMap_cons, ← ih]
    split <;> rfl

end New

namespace Dense

/-! ## Fractions by rank -/

/-- **The rank of a candidate**: whole numbers come before others, then the numerator counts. -/
def rank (r : ℚ) : Bool ×ₗ ℕ :=
  toLex (decide (r.den ≠ 1), r.num.natAbs)

/-- **The fractions of divisors** with both signs, each where it comes first. -/
def collected (numerators denominators : List Nat) : List ℚ :=
  (numerators.flatMap fun a : Nat => denominators.flatMap fun b : Nat =>
    bothSigns ((a : ℚ) / b)).foldl addNew []

/-- **The fractions in lowest terms with one numerator**: the whole number, or the others. -/
def row (denominators : List Nat) (others : Bool) (a : Nat) : List ℚ :=
  (denominators.filter fun b => a.gcd b = 1 ∧ decide (b ≠ 1) = others).flatMap fun b : Nat =>
    bothSigns ((a : ℚ) / b)

theorem rank_eq_iff {r : ℚ} {others : Bool} {a : Nat} :
    rank r = toLex (others, a) ↔ decide (r.den ≠ 1) = others ∧ r.num.natAbs = a := by
  rw [rank, EmbeddingLike.apply_eq_iff_eq, Prod.mk.injEq]

section Fraction

variable {a b : Nat} {r : ℚ}

/-- Numerator and denominator of a fraction, before and after reduction. -/
theorem cross_of_mem (positive : 0 < b) (mem : r ∈ bothSigns ((a : ℚ) / b)) :
    r.num.natAbs * b = a * r.den := by
  have size : ∀ {q : ℚ}, 0 ≤ q → r ∈ bothSigns q → |r| = q := by
    intro q nonneg mem
    rcases mem_bothSigns.mp mem with rfl | rfl
    · exact abs_of_nonneg nonneg
    · rw [abs_neg, abs_of_nonneg nonneg]
  have same : (r.num.natAbs : ℚ) / r.den = a / b :=
    (size (by positivity) (mem_bothSigns_self r)).symm.trans (size (by positivity) mem)
  have denominator : (r.den : ℚ) ≠ 0 := Nat.cast_ne_zero.mpr r.den_nz
  rw [div_eq_div_iff denominator (Nat.cast_ne_zero.mpr positive.ne')] at same
  exact_mod_cast same

theorem num_dvd_of_mem (positive : 0 < b) (mem : r ∈ bothSigns ((a : ℚ) / b)) : r.num.natAbs ∣ a :=
  r.reduced.dvd_of_dvd_mul_right ⟨b, (cross_of_mem positive mem).symm⟩

theorem den_dvd_of_mem (positive : 0 < b) (mem : r ∈ bothSigns ((a : ℚ) / b)) : r.den ∣ b :=
  r.reduced.symm.dvd_of_dvd_mul_left ⟨a, (cross_of_mem positive mem).trans (Nat.mul_comm a r.den)⟩

/-- A fraction that keeps its numerator keeps its denominator, and is in lowest terms. -/
theorem den_eq_of_mem (positive : 0 < b) (mem : r ∈ bothSigns ((a : ℚ) / b)) (nonzero : 0 < a)
    (kept : r.num.natAbs = a) : r.den = b := by
  have cross := cross_of_mem positive mem
  rw [kept] at cross
  exact (Nat.eq_of_mul_eq_mul_left nonzero cross).symm

/-- **A fraction has its numerator as its rank** just if it is in lowest terms. -/
theorem rank_of_mem (positive : 0 < b) (mem : r ∈ bothSigns ((a : ℚ) / b)) (nonzero : 0 < a)
    (others : Bool) : rank r = toLex (others, a) ↔ a.gcd b = 1 ∧ decide (b ≠ 1) = others := by
  rw [rank_eq_iff]
  constructor
  · rintro ⟨kind, kept⟩
    rw [← den_eq_of_mem positive mem nonzero kept, ← kept]
    exact ⟨r.reduced, kind⟩
  · rintro ⟨lowest, kind⟩
    have divides : a ∣ r.num.natAbs :=
      Nat.Coprime.dvd_of_dvd_mul_right lowest ⟨r.den, cross_of_mem positive mem⟩
    have kept := Nat.dvd_antisymm (num_dvd_of_mem positive mem) divides
    rw [den_eq_of_mem positive mem nonzero kept]
    exact ⟨kind, kept⟩

end Fraction

section Rows

variable {numerators denominators : List Nat} {n l : Nat}

/-! ### One numerator -/

section Bottoms

variable (bottoms : Rational.IsDivisors l denominators) {a : Nat} (nonzero : 0 < a)

include bottoms nonzero

/-- **The members of a row** are known by their rank and their denominators. -/
theorem mem_row {others : Bool} {r : ℚ} :
    r ∈ row denominators others a ↔ rank r = toLex (others, a) ∧ r.den ∈ denominators := by
  rw [row, List.mem_flatMap]
  constructor
  · rintro ⟨b, kept, mem⟩
    obtain ⟨inside, lowest⟩ := List.mem_filter.mp kept
    have ranked := (rank_of_mem (bottoms.pos inside) mem nonzero others).mpr (of_decide_eq_true lowest)
    rw [den_eq_of_mem (bottoms.pos inside) mem nonzero (rank_eq_iff.mp ranked).2]
    exact ⟨ranked, inside⟩
  · rintro ⟨ranked, inside⟩
    have mem := mem_bothSigns_self r
    rw [(rank_eq_iff.mp ranked).2] at mem
    refine ⟨r.den, List.mem_filter.mpr ⟨inside, decide_eq_true ?_⟩, mem⟩
    exact (rank_of_mem r.den_pos mem nonzero others).mp ranked

theorem nodup_row (others : Bool) : (row denominators others a).Nodup := by
  have den : ∀ {b : Nat}, (b ∈ denominators.filter fun b => a.gcd b = 1 ∧ decide (b ≠ 1) = others) →
      ∀ {r : ℚ}, r ∈ bothSigns ((a : ℚ) / b) → r.den = b := by
    intro b kept r mem
    obtain ⟨inside, lowest⟩ := List.mem_filter.mp kept
    have ranked := (rank_of_mem (bottoms.pos inside) mem nonzero others).mpr (of_decide_eq_true lowest)
    exact den_eq_of_mem (bottoms.pos inside) mem nonzero (rank_eq_iff.mp ranked).2
  refine List.nodup_flatMap.mpr ⟨fun b kept => ?_, ?_⟩
  · have positive : (0 : ℚ) < a / b :=
      div_pos (Nat.cast_pos.mpr nonzero) (Nat.cast_pos.mpr (bottoms.pos (List.mem_filter.mp kept).1))
    have apart : ((a : ℚ) / b) ≠ -(a / b) := self_ne_neg.mpr positive.ne'
    simpa [bothSigns] using apart
  · refine (bottoms.nodup.filter _).imp_of_mem fun {b b'} kept kept' apart => ?_
    exact List.disjoint_left.mpr fun r mem mem' => apart ((den kept mem).symm.trans (den kept' mem'))

/-- **The fractions with one numerator that are in lowest terms** are those that keep it. -/
theorem filter_flatMap_bothSigns (others : Bool) :
    (denominators.flatMap fun b : Nat => bothSigns ((a : ℚ) / b)).filter (rank · = toLex (others, a)) =
      row denominators others a := by
  rw [List.filter_flatMap, row, flatMap_filter]
  refine List.flatMap_congr fun b inside => ?_
  have ranked : ∀ r ∈ bothSigns ((a : ℚ) / b),
      (rank r = toLex (others, a) ↔ a.gcd b = 1 ∧ decide (b ≠ 1) = others) :=
    fun r mem => rank_of_mem (bottoms.pos inside) mem nonzero others
  by_cases lowest : a.gcd b = 1 ∧ decide (b ≠ 1) = others
  · rw [if_pos (decide_eq_true lowest), List.filter_eq_self]
    exact fun r mem => decide_eq_true ((ranked r mem).mpr lowest)
  · rw [if_neg (mt of_decide_eq_true lowest), List.filter_eq_nil_iff]
    exact fun r mem kept => lowest ((ranked r mem).mp (of_decide_eq_true kept))

end Bottoms

/-! ### Both lists -/

variable (tops : Rational.IsDivisors n numerators) (bottoms : Rational.IsDivisors l denominators)

include tops bottoms

/-- **The fractions of a rank that come first** are those in lowest terms. -/
theorem filter_collected (others : Bool) (a : Nat) :
    (collected numerators denominators).filter (rank · = toLex (others, a)) =
      if a ∈ numerators then row denominators others a else [] := by
  rw [collected, filter_foldl_addNew, List.filter_nil]
  -- the numerator of a fraction divides what it was before
  have divides : ∀ {top : Nat} {r : ℚ}, (r ∈ denominators.flatMap fun b : Nat => bothSigns ((top : ℚ) / b)) →
      rank r = toLex (others, a) → a ∣ top ∧ r.den ∈ denominators := by
    intro top r mem ranked
    obtain ⟨b, inside, mem⟩ := List.mem_flatMap.mp mem
    have bottom := bottoms.pos inside
    rw [← (rank_eq_iff.mp ranked).2]
    exact ⟨num_dvd_of_mem bottom mem, bottoms.mem_of_dvd inside (den_dvd_of_mem bottom mem)⟩
  split
  · rename_i inside
    have nonzero := tops.pos inside
    have positive := fun top mem => tops.pos (d := top) mem
    have ascending := tops.ascending
    obtain ⟨front, rest, rfl⟩ := List.append_of_mem inside
    have none : (front.flatMap fun top : Nat => denominators.flatMap fun b : Nat =>
        bothSigns ((top : ℚ) / b)).filter (rank · = toLex (others, a)) = [] := by
      refine List.filter_eq_nil_iff.mpr fun r mem ranked => ?_
      obtain ⟨top, before, mem⟩ := List.mem_flatMap.mp mem
      have less := (List.pairwise_append.mp ascending).2.2 top before a List.mem_cons_self
      have top_pos := positive top (List.mem_append_left _ before)
      exact absurd (Nat.le_of_dvd top_pos (divides mem (of_decide_eq_true ranked)).1) (Nat.not_le.mpr less)
    have first : (row denominators others a).foldl addNew [] = row denominators others a :=
      foldl_addNew_of_nodup (nodup_row bottoms nonzero others)
    rw [List.flatMap_append, List.flatMap_cons, List.filter_append, List.filter_append, none,
      List.nil_append, filter_flatMap_bothSigns bottoms nonzero, List.foldl_append, first]
    -- with a later numerator they have all been found before
    refine foldl_addNew_of_mem fun r mem => ?_
    obtain ⟨mem, ranked⟩ := List.mem_filter.mp mem
    obtain ⟨top, -, mem⟩ := List.mem_flatMap.mp mem
    have ranked := of_decide_eq_true ranked
    exact (mem_row bottoms nonzero).mpr ⟨ranked, (divides mem ranked).2⟩
  · rename_i outside
    have none : (numerators.flatMap fun top : Nat => denominators.flatMap fun b : Nat =>
        bothSigns ((top : ℚ) / b)).filter (rank · = toLex (others, a)) = [] := by
      refine List.filter_eq_nil_iff.mpr fun r mem ranked => outside ?_
      obtain ⟨top, before, mem⟩ := List.mem_flatMap.mp mem
      exact tops.mem_of_dvd before (divides mem (of_decide_eq_true ranked)).1
    rw [none, List.foldl_nil]

omit tops in
/-- **The candidates by rows**, first the whole numbers and then the others. -/
theorem fractions_eq (numerators : List Nat) :
    fractions numerators denominators =
      numerators.flatMap (row denominators false) ++ numerators.flatMap (row denominators true) := by
  unfold fractions
  congr 1
  · refine List.flatMap_congr fun a _ => ?_
    have one : (denominators.filter fun b => a.gcd b = 1 ∧ decide (b ≠ 1) = false) = [1] := by
      have first : 1 ∈ denominators := (bottoms.mem_iff 1).mpr (Nat.one_dvd l)
      calc (denominators.filter fun b => a.gcd b = 1 ∧ decide (b ≠ 1) = false)
          = denominators.filter fun b => b = 1 := by
            refine List.filter_congr fun b _ => ?_
            by_cases whole : b = 1 <;> simp [whole]
        _ = List.replicate (denominators.count 1) 1 := List.filter_eq 1
        _ = [1] := by rw [List.count_eq_one_of_mem bottoms.nodup first]; rfl
    rw [row, one, List.flatMap_singleton, Nat.cast_one, div_one]
  · refine List.flatMap_congr fun a _ => ?_
    rw [row]
    congr 1
    refine List.filter_congr fun b _ => ?_
    simp [Bool.and_comm]

/-- The fractions of a rank among the rows of one kind. -/
theorem filter_rows (kind others : Bool) (a : Nat) :
    (numerators.flatMap (row denominators kind)).filter (rank · = toLex (others, a)) =
      if a ∈ numerators then (if kind = others then row denominators others a else []) else [] := by
  rw [List.filter_flatMap, ← flatMap_ite_eq tops.nodup]
  refine List.flatMap_congr fun top inside => ?_
  have ranked : ∀ r ∈ row denominators kind top, rank r = toLex (kind, top) :=
    fun r mem => ((mem_row bottoms (tops.pos inside)).mp mem).1
  by_cases here : top = a ∧ kind = others
  · obtain ⟨rfl, rfl⟩ := here
    rw [if_pos rfl, if_pos rfl, List.filter_eq_self]
    exact fun r mem => decide_eq_true (ranked r mem)
  · have none : (row denominators kind top).filter (rank · = toLex (others, a)) = [] := by
      refine List.filter_eq_nil_iff.mpr fun r mem same => here ?_
      have same := (ranked r mem).symm.trans (of_decide_eq_true same)
      obtain ⟨rfl, rfl⟩ := Prod.mk.inj (toLex.injective same)
      exact ⟨rfl, rfl⟩
    rw [none]
    split
    · rename_i first
      rw [if_neg fun second => here ⟨first, second⟩]
    · rfl

/-- **The candidates of a rank**. -/
theorem filter_fractions (others : Bool) (a : Nat) :
    (fractions numerators denominators).filter (rank · = toLex (others, a)) =
      if a ∈ numerators then row denominators others a else [] := by
  rw [fractions_eq bottoms, List.filter_append, filter_rows tops bottoms, filter_rows tops bottoms]
  cases others <;> simp

/-- **The candidates are sorted by rank.** -/
theorem pairwise_fractions : (fractions numerators denominators).Pairwise (rank · ≤ rank ·) := by
  have ranked : ∀ {kind : Bool} {r : ℚ} {a : Nat}, a ∈ numerators → r ∈ row denominators kind a →
      rank r = toLex (kind, a) :=
    fun inside mem => ((mem_row bottoms (tops.pos inside)).mp mem).1
  have rows : ∀ kind, (numerators.flatMap (row denominators kind)).Pairwise (rank · ≤ rank ·) := by
    intro kind
    refine List.pairwise_flatMap.mpr ⟨fun a inside => ?_, tops.ascending.imp_of_mem ?_⟩
    · refine List.pairwise_of_forall_mem_list fun r mem s mem' => ?_
      rw [ranked inside mem, ranked inside mem']
    · intro a a' inside inside' less r mem s mem'
      rw [ranked inside mem, ranked inside' mem', Prod.Lex.toLex_le_toLex]
      exact .inr ⟨rfl, less.le⟩
  rw [fractions_eq bottoms]
  refine List.pairwise_append.mpr ⟨rows false, rows true, fun r mem s mem' => ?_⟩
  obtain ⟨a, inside, mem⟩ := List.mem_flatMap.mp mem
  obtain ⟨a', inside', mem'⟩ := List.mem_flatMap.mp mem'
  rw [ranked inside mem, ranked inside' mem', Prod.Lex.toLex_le_toLex]
  exact .inl Bool.false_lt_true

/-- **The fractions of divisors, sorted by rank, are the candidates.** -/
theorem mergeSort_collected :
    ((collected numerators denominators).mergeSort fun r s => decide (rank r ≤ rank s)) =
      fractions numerators denominators := by
  refine mergeSort_eq_of_keys (pairwise_fractions tops bottoms) fun k => ?_
  obtain ⟨⟨others, a⟩, rfl⟩ := toLex.surjective k
  rw [filter_collected tops bottoms, filter_fractions tops bottoms]

/-- **No candidate is listed twice.** -/
theorem nodup_fractions : (fractions numerators denominators).Nodup := by
  rw [← mergeSort_collected tops bottoms]
  exact (List.mergeSort_perm _ _).nodup_iff.mpr (nodup_foldl_addNew .nil _)

end Rows

/-- **The order of the ranks**: whole numbers first, and numerators that get no smaller among them and
among the others. -/
theorem rank_le_iff {r s : ℚ} : rank r ≤ rank s ↔
    (s.den = 1 → r.den = 1) ∧ ((r.den = 1 ↔ s.den = 1) → r.num.natAbs ≤ s.num.natAbs) := by
  rw [rank, rank, Prod.Lex.toLex_le_toLex]
  by_cases whole : r.den = 1 <;> by_cases whole' : s.den = 1 <;> simp [whole, whole']

/-! ## Rational roots -/

section Roots

variable {cs : List ℚ} (leading : HasLeading cs) (long : 2 ≤ cs.length) (within : WithinLimit cs)
  (constant : ((integerCoefficients cs).getLast?.getD 0).natAbs ≠ 0)

include leading long within constant

/-- **The candidates as they are found**: the fractions of divisors of the constant and the leading
coefficient, sorted by rank. -/
theorem candidates_eq_mergeSort : candidates cs =
    (collected (Rational.divisorsFrom ((integerCoefficients cs).getLast?.getD 0).natAbs 1 [] [])
      (Rational.divisorsFrom ((integerCoefficients cs).head?.getD 0).natAbs 1 [] [])).mergeSort
        fun r s => decide (rank r ≤ rank s) := by
  have first := Int.natAbs_pos.mpr (head_integerCoefficients_ne_zero leading)
  rw [candidates_of_constant long within constant, mergeSort_collected
    (Rational.isDivisors_divisorsFrom (Nat.pos_of_ne_zero constant))
    (Rational.isDivisors_divisorsFrom first)]

/-- The candidates are sorted, and none is listed twice. -/
theorem candidates_sorted :
    (candidates cs).Nodup ∧ (candidates cs).Pairwise (rank · ≤ rank ·) := by
  have tops := Rational.isDivisors_divisorsFrom (Nat.pos_of_ne_zero constant)
  have bottoms := Rational.isDivisors_divisorsFrom
    (Int.natAbs_pos.mpr (head_integerCoefficients_ne_zero leading))
  rw [candidates_of_constant long within constant]
  exact ⟨nodup_fractions tops bottoms, pairwise_fractions tops bottoms⟩

/-- **The rational roots are all rational roots.** -/
theorem mem_rationalRoots (r : ℚ) : r ∈ rationalRoots cs ↔ (polynomialOf cs).IsRoot r := by
  have root : hasRoot cs r = true ↔ (polynomialOf cs).IsRoot r := by
    rw [hasRoot, decide_eq_true_eq, Polynomial.IsRoot, eval_polynomialOf]
  rw [rationalRoots, List.mem_filter, root]
  constructor
  · exact fun found => found.2
  · exact fun zero => ⟨mem_candidates leading long within constant (root.mpr zero), zero⟩

end Roots

end Dense

namespace Poly

/-- **All rational roots are found**, each once and nothing else, if the constant and the leading
coefficient are not too large to find their divisors. Whole numbers come first, and numerators get no
smaller among them and among the others. -/
theorem rationalRoots_complete (p : Poly) (rational : p.hasRationalCoefficients = true)
    (powers : p.hasNaturalPowers = true) (d : Nat) (degree : p.degree? = some (d : ℚ))
    (positive : 1 ≤ d) (constant : p.toPolynomial.coeff 0 ≠ 0)
    (within : ∀ cs, p.dense = .ok cs → Dense.WithinLimit cs) :
    ∃ roots, p.rationalRoots = .ok roots ∧ roots.Nodup ∧
      (∀ r, r ∈ roots ↔ p.toPolynomial.IsRoot r) ∧
      roots.Pairwise fun r s => (s.den = 1 → r.den = 1) ∧
        ((r.den = 1 ↔ s.den = 1) → r.num.natAbs ≤ s.num.natAbs) := by
  obtain ⟨cs, found, value, leading, natDegree⟩ :=
    dense_of_degree (p.isNatural_iff.mpr ⟨rational, powers⟩) degree
  have within := within cs found
  have long : 2 ≤ cs.length := by
    rw [leading.length_eq, value, natDegree]
    omega
  have some : ((Dense.integerCoefficients cs).getLast?.getD 0).natAbs ≠ 0 := by
    intro none
    have zero := Dense.hasRoot_zero_of_constant none
    rw [Dense.hasRoot, decide_eq_true_eq, ← Dense.eval_polynomialOf, value,
      ← Polynomial.coeff_zero_eq_eval_zero] at zero
    exact constant zero
  obtain ⟨nodup, sorted⟩ := Dense.candidates_sorted leading long within some
  refine ⟨Dense.rationalRoots cs, by rw [rationalRoots, found]; rfl, nodup.filter _, ?_, ?_⟩
  · rw [← value]
    exact Dense.mem_rationalRoots leading long within some
  · exact (sorted.filter _).imp Dense.rank_le_iff.mp

/-- The roots of `x² - x/2 - 3/2` are `-1` and `3/2`. -/
theorem rationalRoots_complete_halves :
    (ofCoefficients [1, -1 / 2, -3 / 2] "x").rationalRoots = .ok [-1, 3 / 2] ∧
      ∀ r : ℚ, (ofCoefficients [1, -1 / 2, -3 / 2] "x").toPolynomial.IsRoot r ↔ r = -1 ∨ r = 3 / 2 := by
  have dense : (ofCoefficients [1, -1 / 2, -3 / 2] "x").dense = .ok [1, -1 / 2, -3 / 2] := by
    decide +kernel
  have constant : (ofCoefficients [1, -1 / 2, -3 / 2] "x").toPolynomial.coeff 0 ≠ 0 := by
    rw [toPolynomial_ofCoefficients, Polynomial.coeff_zero_eq_eval_zero, Dense.eval_polynomialOf]
    decide +kernel
  have within : ∀ cs, (ofCoefficients [1, -1 / 2, -3 / 2] "x").dense = .ok cs → Dense.WithinLimit cs := by
    intro cs found
    obtain rfl : [1, -1 / 2, -3 / 2] = cs := Except.ok.inj (dense.symm.trans found)
    unfold Dense.WithinLimit
    decide +kernel
  have answer : (ofCoefficients [1, -1 / 2, -3 / 2] "x").rationalRoots = .ok [-1, 3 / 2] := by
    decide +kernel
  obtain ⟨roots, found, -, all, -⟩ := rationalRoots_complete (ofCoefficients [1, -1 / 2, -3 / 2] "x")
    (by decide +kernel) (by decide +kernel) 2 (by decide +kernel) (by decide) constant within
  obtain rfl : [-1, 3 / 2] = roots := Except.ok.inj (answer.symm.trans found)
  refine ⟨answer, fun r => ?_⟩
  rw [← all, List.mem_cons, List.mem_singleton]

end Poly

end ExactAlgebra
