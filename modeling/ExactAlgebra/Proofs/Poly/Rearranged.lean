import ExactAlgebra.Proofs.Poly.Single
import ExactAlgebra.Proofs.Radical.Sum
import Mathlib.Data.Multiset.Bind

/-!
# Terms in another order

Like terms are added from left to right, and a partial sum with unlike radicals is refused. Once a
polynomial comes out, the order of the terms has left no trace in it. But the order can decide
whether one comes out. That takes two things at once: like terms with unlike radicals, and radicals
that cancel until one is left at each power. Without both, all orders fare the same; with both, some
of them succeed and some fail.

## Main statements

* `exists_collect_iff` — terms can be collected if at each power the coefficients have a sum;
* `OrderMatters.exists_collect`, `OrderMatters.exists_error` — orders that succeed, and that fail;
* `rearranged` — polynomials from terms in two orders, and sums and products of exchanged operands.

## Main definitions

* `coefficientsAt`, `collectedAt` — the coefficients of a power, before and after they are added;
* `Mixes`, `Resolves`, `OrderMatters` — when the order of terms makes a difference.
-/

namespace ExactAlgebra

open Radical (part sumFrom IsAlike)

/-! ## Power by power -/

/-- The coefficients of a power, in the order of the terms. -/
def coefficientsAt (p : ℚ) (ts : List Term) : List Radical :=
  (ts.filter (·.power = p)).map (·.coefficient)

/-- What has been collected for a power, zero if there was no term. -/
def collectedAt (p : ℚ) (sums : List Term) : Radical :=
  ((sums.find? (·.power = p)).map (·.coefficient)).getD (.ofRat 0)

section Powers

variable {p : ℚ} {s t : Term} {ss ts us sums result : List Term}

theorem coefficientsAt_append (p : ℚ) (ss ts : List Term) :
    coefficientsAt p (ss ++ ts) = coefficientsAt p ss ++ coefficientsAt p ts := by
  rw [coefficientsAt, List.filter_append, List.map_append, coefficientsAt, coefficientsAt]

theorem coefficientsAt_cons_self (t : Term) (ts : List Term) :
    coefficientsAt t.power (t :: ts) = t.coefficient :: coefficientsAt t.power ts := by
  rw [coefficientsAt, List.filter_cons_of_pos (by simp), List.map_cons, coefficientsAt]

theorem coefficientsAt_cons_of_ne (other : t.power ≠ p) :
    coefficientsAt p (t :: ts) = coefficientsAt p ts := by
  rw [coefficientsAt, List.filter_cons_of_neg (by simpa using other), coefficientsAt]

theorem mem_coefficientsAt {c : Radical} : c ∈ coefficientsAt p ts ↔ ⟨c, p⟩ ∈ ts := by
  rw [coefficientsAt, List.mem_map]
  constructor
  · rintro ⟨t, mem, rfl⟩
    obtain ⟨mem, power⟩ := List.mem_filter.mp mem
    rwa [← of_decide_eq_true power]
  · exact fun mem => ⟨_, List.mem_filter.mpr ⟨mem, decide_eq_true rfl⟩, rfl⟩

theorem coefficientsAt_perm (perm : ts.Perm us) (p : ℚ) :
    (coefficientsAt p ts).Perm (coefficientsAt p us) :=
  (perm.filter _).map _

theorem collectedAt_cons_self (t : Term) (sums : List Term) :
    collectedAt t.power (t :: sums) = t.coefficient := by
  rw [collectedAt, List.find?_cons_of_pos (by simp)]
  rfl

theorem collectedAt_cons_of_ne (other : t.power ≠ p) :
    collectedAt p (t :: sums) = collectedAt p sums := by
  rw [collectedAt, List.find?_cons_of_neg (by simpa using other), collectedAt]

theorem collectedAt_of_lt (above : ∀ s ∈ sums, p < s.power) : collectedAt p sums = .ofRat 0 := by
  have none : sums.find? (·.power = p) = none := by
    rw [List.find?_eq_none]
    intro s mem
    simpa using (above s mem).ne'
  rw [collectedAt, none]
  rfl

/-! ## One term -/

/-- **A term is added to what has been collected for its power.** -/
theorem add_of_insertTerm (ascending : sums.Pairwise fun s t => s.power < t.power)
    (inserted : insertTerm t sums = .ok result) :
    (collectedAt t.power sums).add t.coefficient = .ok (collectedAt t.power result) := by
  induction sums generalizing result with
  | nil =>
    cases inserted
    rw [collectedAt_cons_self]
    exact Radical.zero_add_eq _
  | cons s rest ih =>
    obtain ⟨above, ascending⟩ := List.pairwise_cons.mp ascending
    rw [insertTerm] at inserted
    split at inserted
    · -- the power is below all others, so there was none of it
      rename_i less
      cases inserted
      rw [collectedAt_cons_self, collectedAt_of_lt]
      · exact Radical.zero_add_eq _
      · exact List.forall_mem_cons.mpr ⟨less, fun u mem => less.trans (above u mem)⟩
    · split at inserted
      · rename_i same
        obtain ⟨c, sum, rfl⟩ := ok_of_map inserted
        rw [same, collectedAt_cons_self, collectedAt_cons_self ⟨c, s.power⟩]
        exact sum
      · rename_i other
        obtain ⟨more, there, rfl⟩ := ok_of_map inserted
        rw [collectedAt_cons_of_ne (Ne.symm other), collectedAt_cons_of_ne (Ne.symm other)]
        exact ih ascending there

/-- The other powers are left alone. -/
theorem collectedAt_insertTerm_of_ne (other : t.power ≠ p)
    (inserted : insertTerm t sums = .ok result) : collectedAt p result = collectedAt p sums := by
  induction sums generalizing result with
  | nil =>
    cases inserted
    exact collectedAt_cons_of_ne other
  | cons s rest ih =>
    rw [insertTerm] at inserted
    split at inserted
    · cases inserted
      exact collectedAt_cons_of_ne other
    · split at inserted
      · rename_i same
        obtain ⟨c, -, rfl⟩ := ok_of_map inserted
        rw [same] at other
        have apart : Term.power ⟨c, s.power⟩ ≠ p := other
        rw [collectedAt_cons_of_ne apart, collectedAt_cons_of_ne other]
      · obtain ⟨more, there, rfl⟩ := ok_of_map inserted
        by_cases here : s.power = p
        · subst here
          rw [collectedAt_cons_self, collectedAt_cons_self]
        · rw [collectedAt_cons_of_ne here, collectedAt_cons_of_ne here]
          exact ih there

/-- A term finds its place if it can be added to what is there. -/
theorem exists_insertTerm {c : Radical} (sum : (collectedAt t.power sums).add t.coefficient = .ok c) :
    ∃ result, insertTerm t sums = .ok result := by
  induction sums with
  | nil => exact ⟨_, rfl⟩
  | cons s rest ih =>
    rw [insertTerm]
    split
    · exact ⟨_, rfl⟩
    · split
      · rename_i same
        rw [same, collectedAt_cons_self] at sum
        rw [sum]
        exact ⟨_, rfl⟩
      · rename_i other
        rw [collectedAt_cons_of_ne (Ne.symm other)] at sum
        obtain ⟨more, there⟩ := ih sum
        rw [there]
        exact ⟨_, rfl⟩

/-! ## Several terms -/

/-- **What is collected for a power** is the sum of its coefficients. -/
theorem sumFrom_of_foldlM (ascending : sums.Pairwise fun s t => s.power < t.power)
    (collected : ts.foldlM (fun sums t => insertTerm t sums) sums = .ok result) (p : ℚ) :
    sumFrom (collectedAt p sums) (coefficientsAt p ts) = .ok (collectedAt p result) := by
  induction ts generalizing sums with
  | nil =>
    cases collected
    rfl
  | cons t rest ih =>
    rw [List.foldlM_cons] at collected
    obtain ⟨next, inserted, collected⟩ := ok_of_bind collected
    have run := ih (insertTerm_ascending ascending inserted) collected
    by_cases here : t.power = p
    · subst here
      rw [coefficientsAt_cons_self, Radical.sumFrom_cons, add_of_insertTerm ascending inserted]
      exact run
    · rw [coefficientsAt_cons_of_ne here, ← collectedAt_insertTerm_of_ne here inserted]
      exact run

theorem exists_foldlM (ascending : sums.Pairwise fun s t => s.power < t.power)
    (summed : ∀ p, ∃ c, sumFrom (collectedAt p sums) (coefficientsAt p ts) = .ok c) :
    ∃ result, ts.foldlM (fun sums t => insertTerm t sums) sums = .ok result := by
  induction ts generalizing sums with
  | nil => exact ⟨sums, rfl⟩
  | cons t rest ih =>
    obtain ⟨c, sum⟩ := summed t.power
    rw [coefficientsAt_cons_self, Radical.sumFrom_cons] at sum
    obtain ⟨d, first, -⟩ := ok_of_bind sum
    obtain ⟨next, inserted⟩ := exists_insertTerm first
    rw [List.foldlM_cons, inserted]
    refine ih (insertTerm_ascending ascending inserted) fun p => ?_
    obtain ⟨c, sum⟩ := summed p
    by_cases here : t.power = p
    · subst here
      rw [coefficientsAt_cons_self, Radical.sumFrom_cons, add_of_insertTerm ascending inserted] at sum
      exact ⟨c, sum⟩
    · rw [coefficientsAt_cons_of_ne here, ← collectedAt_insertTerm_of_ne here inserted] at sum
      exact ⟨c, sum⟩

theorem sumFrom_of_collect (collected : collect ts = .ok sums) (p : ℚ) :
    sumFrom (.ofRat 0) (coefficientsAt p ts) = .ok (collectedAt p sums) :=
  sumFrom_of_foldlM List.Pairwise.nil collected p

/-- **Terms can be collected if at each power the coefficients have a sum.** -/
theorem exists_collect_iff :
    (∃ sums, collect ts = .ok sums) ↔
      ∀ p, ∃ c, sumFrom (.ofRat 0) (coefficientsAt p ts) = .ok c :=
  ⟨fun ⟨_, collected⟩ p => ⟨_, sumFrom_of_collect collected p⟩, exists_foldlM List.Pairwise.nil⟩

/-! ## Two results -/

theorem mem_terms_ofSums (symbol : String) (ascending : sums.Pairwise fun s t => s.power < t.power) :
    t ∈ (Poly.ofSums symbol sums ascending).terms ↔
      t.coefficient.coefficient ≠ 0 ∧ collectedAt t.power sums = t.coefficient := by
  rw [Poly.ofSums, List.mem_reverse, List.mem_filter, decide_eq_true_iff, and_comm]
  refine and_congr_right fun nonzero => ?_
  induction sums with
  | nil =>
    refine iff_of_false List.not_mem_nil fun zero => nonzero ?_
    rw [← zero]
    rfl
  | cons s rest ih =>
    obtain ⟨above, ascending⟩ := List.pairwise_cons.mp ascending
    rw [List.mem_cons]
    by_cases same : s.power = t.power
    · rw [← same, collectedAt_cons_self, or_iff_left]
      · constructor
        · rintro rfl
          rfl
        · intro coefficient
          obtain ⟨c, p⟩ := s
          obtain ⟨d, q⟩ := t
          obtain rfl : c = d := coefficient
          obtain rfl : p = q := same
          rfl
      · -- the powers of the rest are higher
        exact fun mem => absurd (above t mem) (by rw [same]; exact lt_irrefl _)
    · rw [collectedAt_cons_of_ne same, ← ih ascending, or_iff_right]
      rintro rfl
      exact same rfl

/-- **Sums that agree at each power make the same polynomial.** -/
theorem ofSums_congr (symbol : String) {others : List Term}
    (ascending : sums.Pairwise fun s t => s.power < t.power)
    (ascending' : others.Pairwise fun s t => s.power < t.power)
    (same : ∀ p, collectedAt p sums = collectedAt p others) :
    Poly.ofSums symbol sums ascending = Poly.ofSums symbol others ascending' := by
  refine Poly.ext (Poly.terms_eq_of_mem_iff fun t => ?_) rfl
  rw [mem_terms_ofSums, mem_terms_ofSums, same]

theorem collectedAt_eq_of_perm {others : List Term} (perm : ts.Perm us)
    (left : collect ts = .ok sums) (right : collect us = .ok others) (p : ℚ) :
    collectedAt p sums = collectedAt p others := by
  refine Radical.eq_of_part_eq fun m => ?_
  rw [Radical.part_sumFrom (sumFrom_of_collect left p), Radical.part_sumFrom (sumFrom_of_collect right p),
    ((coefficientsAt_perm perm p).map (part m)).sum_eq]

/-- **The order leaves no trace in the polynomial.** -/
theorem ofTerms_eq_of_perm {p q : Poly} {symbol : String} (perm : ts.Perm us)
    (left : Poly.ofTerms symbol ts = .ok p) (right : Poly.ofTerms symbol us = .ok q) : p = q := by
  obtain ⟨sums, collected, rfl⟩ := Poly.collect_of_ofTerms left
  obtain ⟨others, collected', rfl⟩ := Poly.collect_of_ofTerms right
  exact ofSums_congr symbol _ _ (collectedAt_eq_of_perm perm collected collected')

end Powers

/-! ## When the order matters -/

/-- **Like terms with unlike radicals**: two terms of one power that are not zero and have different
radicands. -/
def Mixes (ts : List Term) : Prop :=
  ∃ s ∈ ts, ∃ t ∈ ts, s.power = t.power ∧ s.coefficient.coefficient ≠ 0 ∧
    t.coefficient.coefficient ≠ 0 ∧ s.coefficient.radicand ≠ t.coefficient.radicand

/-- **At each power all radicals but one cancel.** -/
def Resolves (ts : List Term) : Prop :=
  ∀ p, ∃ m, ∀ k ≠ m, ((coefficientsAt p ts).map (part k)).sum = 0

/-- **The order of the terms decides whether they can be collected.** -/
def OrderMatters (ts : List Term) : Prop :=
  Mixes ts ∧ Resolves ts

section Orders

variable {p : ℚ} {m : ℕ} {ts us sums : List Term}

theorem Mixes.perm (perm : ts.Perm us) (mixes : Mixes ts) : Mixes us := by
  obtain ⟨s, hs, t, ht, unlike⟩ := mixes
  exact ⟨s, perm.mem_iff.mp hs, t, perm.mem_iff.mp ht, unlike⟩

theorem Resolves.perm (perm : ts.Perm us) (resolves : Resolves ts) : Resolves us := by
  intro p
  obtain ⟨m, cancel⟩ := resolves p
  refine ⟨m, fun k other => ?_⟩
  rw [← ((coefficientsAt_perm perm p).map (part k)).sum_eq]
  exact cancel k other

/-- **What has been collected has cancelled.** -/
theorem resolves_of_collect (collected : collect ts = .ok sums) : Resolves ts := fun p =>
  ⟨(collectedAt p sums).radicand, fun _ other =>
    Radical.resolves_of_sumFrom (sumFrom_of_collect collected p) other⟩

/-- The coefficients of a power have one radicand, or are zero. -/
theorem isAlike_of_not_mixes (simple : ¬Mixes ts) (p : ℚ) :
    ∃ m, ∀ c ∈ coefficientsAt p ts, IsAlike m c := by
  by_cases zero : ∀ c ∈ coefficientsAt p ts, c.coefficient = 0
  · exact ⟨1, fun c mem some => absurd (zero c mem) some⟩
  · push Not at zero
    obtain ⟨b, hb, nonzero⟩ := zero
    refine ⟨b.radicand, fun c hc some => ?_⟩
    by_contra unlike
    exact simple ⟨⟨c, p⟩, mem_coefficientsAt.mp hc, ⟨b, p⟩, mem_coefficientsAt.mp hb, rfl, some,
      nonzero, unlike⟩

/-- **Without unlike radicals every order can be collected.** -/
theorem exists_collect_of_not_mixes (simple : ¬Mixes ts) : ∃ sums, collect ts = .ok sums := by
  refine exists_collect_iff.mpr fun p => ?_
  obtain ⟨m, alike⟩ := isAlike_of_not_mixes simple p
  exact Radical.sumFrom_of_alike (Radical.isAlike_ofRat_zero m) alike

/-- **With unlike radicals some order fails**: the one in which they come first. -/
theorem Mixes.exists_error (mixes : Mixes ts) :
    ∃ us, us.Perm ts ∧ ∃ e, collect us = .error e := by
  obtain ⟨s, hs, t, ht, power, left, right, unlike⟩ := mixes
  have apart : t ≠ s := by
    rintro rfl
    exact unlike rfl
  have first := List.perm_cons_erase hs
  have second := List.perm_cons_erase ((List.mem_erase_of_ne apart).mpr ht)
  refine ⟨s :: t :: (ts.erase s).erase t, (first.trans (second.cons s)).symm, ?_⟩
  cases collected : collect (s :: t :: (ts.erase s).erase t) with
  | error e => exact ⟨e, rfl⟩
  | ok sums =>
    -- the second step of the sum would have to succeed
    have sum := sumFrom_of_collect collected s.power
    rw [coefficientsAt_cons_self, power, coefficientsAt_cons_self, Radical.sumFrom_cons,
      Radical.zero_add_eq, bind_ok, Radical.sumFrom_cons] at sum
    obtain ⟨c, refused, -⟩ := ok_of_bind sum
    obtain ⟨e, failed⟩ := Radical.add_of_unlike left right unlike
    cases failed.symm.trans refused

/-! ### Cancelling first -/

/-- Whether a term has a given power and a given radicand. -/
def hasRadical (p : ℚ) (k : ℕ) (t : Term) : Bool :=
  t.power = p && t.coefficient.radicand = k

/-- The terms with a power and a radicand. -/
def alike (p : ℚ) (k : ℕ) (ts : List Term) : List Term :=
  ts.filter (hasRadical p k)

/-- The other terms. -/
def unlike (p : ℚ) (k : ℕ) (ts : List Term) : List Term :=
  ts.filter (! hasRadical p k ·)

variable {q : ℚ} {c : Radical} {k : ℕ}

theorem alike_append_unlike (p : ℚ) (k : ℕ) (ts : List Term) :
    (alike p k ts ++ unlike p k ts).Perm ts :=
  List.filter_append_perm _ _

theorem of_mem_alike (mem : c ∈ coefficientsAt q (alike p k ts)) : q = p ∧ c.radicand = k := by
  have here := (List.mem_filter.mp (mem_coefficientsAt.mp mem)).2
  simpa [hasRadical] using here

theorem radicand_ne_of_mem_unlike (mem : c ∈ coefficientsAt p (unlike p k ts)) :
    c.radicand ≠ k := by
  have here := (List.mem_filter.mp (mem_coefficientsAt.mp mem)).2
  simpa [hasRadical] using here

/-- The terms with one radical have all of its part, and no other. -/
theorem sum_part_alike (q : ℚ) (j : ℕ) :
    ((coefficientsAt q (alike p k ts)).map (part j)).sum =
      if q = p ∧ j = k then ((coefficientsAt q ts).map (part j)).sum else 0 := by
  split
  · rename_i here
    obtain ⟨rfl, rfl⟩ := here
    rw [← ((coefficientsAt_perm (alike_append_unlike q j ts) q).map (part j)).sum_eq,
      coefficientsAt_append, List.map_append, List.sum_append, left_eq_add]
    refine List.sum_eq_zero fun x inside => ?_
    obtain ⟨c, mem, rfl⟩ := List.mem_map.mp inside
    exact Radical.part_of_ne (radicand_ne_of_mem_unlike mem)
  · rename_i elsewhere
    refine List.sum_eq_zero fun x inside => ?_
    obtain ⟨c, mem, rfl⟩ := List.mem_map.mp inside
    obtain ⟨power, radicand⟩ := of_mem_alike mem
    exact Radical.part_of_ne fun same => elsewhere ⟨power, same.symm.trans radicand⟩

/-- **Terms with one radical that cancels** come to nothing. -/
theorem sumFrom_alike (cancel : ((coefficientsAt p ts).map (part k)).sum = 0) (q : ℚ) :
    sumFrom (.ofRat 0) (coefficientsAt q (alike p k ts)) = .ok (.ofRat 0) := by
  have same : ∀ c ∈ coefficientsAt q (alike p k ts), IsAlike k c := fun c mem _ =>
    (of_mem_alike mem).2
  obtain ⟨c, sum⟩ := Radical.sumFrom_of_alike (Radical.isAlike_ofRat_zero k) same
  rw [sum]
  refine congrArg Except.ok (Radical.eq_of_part_eq fun j => ?_)
  rw [Radical.part_sumFrom sum, sum_part_alike]
  split
  · rename_i here
    rw [here.1, here.2, cancel, add_zero]
  · exact add_zero _

/-- **The other radicals still cancel** without it. -/
theorem Resolves.unlike (resolves : Resolves ts) (p : ℚ) (k : ℕ) : Resolves (unlike p k ts) := by
  intro q
  obtain ⟨m, others⟩ := resolves q
  refine ⟨m, fun j other => ?_⟩
  have total := ((coefficientsAt_perm (alike_append_unlike p k ts) q).map (part j)).sum_eq
  rw [coefficientsAt_append, List.map_append, List.sum_append, sum_part_alike, others j other] at total
  split at total
  · rwa [zero_add] at total
  · rwa [zero_add] at total

/-- **If all radicals but one cancel, some order succeeds**: the one in which they cancel first. -/
theorem Resolves.exists_collect (resolves : Resolves ts) :
    ∃ us, us.Perm ts ∧ ∃ sums, collect us = .ok sums := by
  -- by induction on the number of terms, one radical that cancels is put first
  induction length : ts.length using Nat.strong_induction_on generalizing ts with
  | _ n ih =>
    choose m cancel using resolves
    by_cases left : ∀ p, ∀ c ∈ coefficientsAt p ts, IsAlike (m p) c
    · exact ⟨ts, .refl ts, exists_collect_iff.mpr fun p =>
        Radical.sumFrom_of_alike (Radical.isAlike_ofRat_zero (m p)) (left p)⟩
    · unfold IsAlike at left
      push Not at left
      obtain ⟨p, c, mem, -, other⟩ := left
      have cancels := cancel p c.radicand other
      have shorter : (ExactAlgebra.unlike p c.radicand ts).length < n := by
        rw [← length]
        refine List.length_filter_lt_length_iff_exists.mpr ⟨_, mem_coefficientsAt.mp mem, ?_⟩
        simp [hasRadical]
      obtain ⟨us, perm, sums, collected⟩ :=
        ih _ shorter (Resolves.unlike (fun p => ⟨m p, cancel p⟩) p c.radicand) rfl
      refine ⟨alike p c.radicand ts ++ us, ?_, exists_collect_iff.mpr fun q => ?_⟩
      · exact (perm.append_left _).trans (alike_append_unlike p c.radicand ts)
      · rw [coefficientsAt_append, Radical.sumFrom_append, sumFrom_alike cancels]
        exact ⟨_, sumFrom_of_collect collected q⟩

end Orders

namespace Poly

variable {ss ts us : List Term}

theorem exists_ofTerms_iff (symbol : String) :
    (∃ p, ofTerms symbol ts = .ok p) ↔ ∃ sums, collect ts = .ok sums := by
  constructor
  · rintro ⟨p, formed⟩
    obtain ⟨sums, collected, -⟩ := collect_of_ofTerms formed
    exact ⟨sums, collected⟩
  · rintro ⟨sums, collected⟩
    exact ⟨_, ofTerms_eq collected symbol⟩

/-! ## Two orders of terms -/

/-- **The order of terms makes no difference**, except where it decides. -/
theorem ofTerms_rearranged (symbol : String) (perm : ts.Perm us) :
    SameOutcome (ofTerms symbol ts) (ofTerms symbol us) ∨ OrderMatters ts := by
  by_cases matters : OrderMatters ts
  · exact .inr matters
  refine .inl (sameOutcome_of_iff ?_ fun p q => ofTerms_eq_of_perm perm)
  rw [exists_ofTerms_iff, exists_ofTerms_iff]
  by_cases mixes : Mixes ts
  · -- whatever can be collected has cancelled
    constructor
    · rintro ⟨sums, collected⟩
      exact absurd ⟨mixes, resolves_of_collect collected⟩ matters
    · rintro ⟨sums, collected⟩
      exact absurd ⟨mixes, (resolves_of_collect collected).perm perm.symm⟩ matters
  · exact iff_of_true (exists_collect_of_not_mixes mixes)
      (exists_collect_of_not_mixes fun other => mixes (other.perm perm.symm))

/-! ## Monomials -/

theorem insertName_comm (a b : String) (names : List String) :
    insertName a (insertName b names) = insertName b (insertName a names) := by
  induction names with
  | nil => grind [insertName]
  | cons n rest ih => grind [insertName]

/-- The variables that are named do not depend on the order. -/
theorem symbols_perm {ms ns : List Monomial} (perm : ms.Perm ns) : symbols ms = symbols ns := by
  refine perm.foldl_eq' (fun m _ n _ names => ?_) []
  split <;> split <;> first | rfl | exact insertName_comm _ _ _

/-- **All orders of some monomials are in the same variable**, or are refused for several ones. -/
theorem ofMonomials_cases (ms : List Monomial) (symbol : String) :
    (∃ names, ∀ ns, ms.Perm ns → ofMonomials ns symbol = .error (.severalVariables names)) ∨
      ∃ name, ∀ ns, ms.Perm ns → ofMonomials ns symbol = ofTerms name (ns.map (·.term)) := by
  simp only [ofMonomials]
  cases named : symbols ms with
  | nil =>
    refine .inr ⟨symbol, fun ns perm => ?_⟩
    rw [← symbols_perm perm, named]
  | cons name rest =>
    cases rest with
    | nil =>
      by_cases other : symbol ≠ "" ∧ name ≠ symbol
      · refine .inl ⟨[name, symbol], fun ns perm => ?_⟩
        rw [← symbols_perm perm, named]
        exact if_pos other
      · refine .inr ⟨name, fun ns perm => ?_⟩
        rw [← symbols_perm perm, named]
        exact if_neg other
    | cons second more =>
      refine .inl ⟨name :: second :: more, fun ns perm => ?_⟩
      rw [← symbols_perm perm, named]

/-- An order of the terms is an order of the monomials. -/
theorem exists_perm_of_terms {ms : List Monomial} (perm : ts.Perm (ms.map (·.term))) :
    ∃ ns, ms.Perm ns ∧ ns.map (·.term) = ts := by
  have each : List.Forall₂ (fun t (m : Monomial) => t = m.term) (ms.map (·.term)) ms :=
    List.forall₂_map_left_iff.mpr (List.forall₂_same.mpr fun _ _ => rfl)
  obtain ⟨ns, same, perm'⟩ := List.perm_comp_forall₂ perm each
  refine ⟨ns, perm'.symm, ?_⟩
  rw [← List.forall₂_eq_eq_eq, List.forall₂_map_left_iff]
  exact same.flip.imp fun _ _ equal => equal.symm

/-- **Where the order decides, some orders succeed and some fail.** -/
theorem ofMonomials_orders {ms : List Monomial} (symbol : String)
    (matters : OrderMatters (ms.map (·.term))) :
    (∀ ns, ms.Perm ns → ∃ names, ofMonomials ns symbol = .error (.severalVariables names)) ∨
      (∃ ns, ms.Perm ns ∧ ∃ p, ofMonomials ns symbol = .ok p) ∧
        ∃ ns, ms.Perm ns ∧ ∃ e, ofMonomials ns symbol = .error e := by
  rcases ofMonomials_cases ms symbol with ⟨names, refused⟩ | ⟨name, formed⟩
  · exact .inl fun ns perm => ⟨names, refused ns perm⟩
  · right
    constructor
    · obtain ⟨us, reordered, collected⟩ := matters.2.exists_collect
      obtain ⟨ns, perm, rfl⟩ := exists_perm_of_terms reordered
      rw [← exists_ofTerms_iff name, ← formed ns perm] at collected
      exact ⟨ns, perm, collected⟩
    · obtain ⟨us, reordered, e, failed⟩ := matters.1.exists_error
      obtain ⟨ns, perm, rfl⟩ := exists_perm_of_terms reordered
      refine ⟨ns, perm, ?_⟩
      cases outcome : ofMonomials ns symbol with
      | error e => exact ⟨e, rfl⟩
      | ok p =>
        rw [formed ns perm] at outcome
        obtain ⟨sums, collected, -⟩ := collect_of_ofTerms outcome
        cases failed.symm.trans collected

/-! ## Exchanged operands -/

theorem commonSymbol_exchanged (p q : Poly) :
    SameOutcome (p.commonSymbol q) (q.commonSymbol p) := by
  by_cases compatible : p.symbol = "" ∨ q.symbol = "" ∨ p.symbol = q.symbol
  · have exchanged : q.symbol = "" ∨ p.symbol = "" ∨ q.symbol = p.symbol := by
      rcases compatible with left | right | same
      · exact .inr (.inl left)
      · exact .inl right
      · exact .inr (.inr same.symm)
    rw [commonSymbol_eq compatible, commonSymbol_eq exchanged]
    refine .inl ⟨_, rfl, congrArg Except.ok ?_⟩
    rcases compatible with left | right | same
    · rw [left, if_pos rfl]
      split
      · rename_i none
        exact none.symm
      · rfl
    · rw [right, if_pos rfl]
      split
      · rename_i none
        exact none
      · rfl
    · rw [same]
  · simp only [not_or] at compatible
    obtain ⟨left, right, apart⟩ := compatible
    refine sameOutcome_of_errors ⟨_, if_pos ⟨left, right, apart⟩⟩ ⟨_, if_pos ⟨right, left, ?_⟩⟩
    exact Ne.symm apart

/-- A polynomial has at most one coefficient for each power. -/
theorem coefficientsAt_terms (p : Poly) (e : ℚ) :
    coefficientsAt e p.terms = [] ∨ ∃ c, coefficientsAt e p.terms = [c] := by
  have descending := p.descending.filter (·.power = e)
  have powers : ∀ t ∈ p.terms.filter (·.power = e), t.power = e := fun t mem =>
    of_decide_eq_true (List.mem_filter.mp mem).2
  rw [coefficientsAt]
  generalize p.terms.filter (·.power = e) = ts at descending powers ⊢
  match ts with
  | [] => exact .inl rfl
  | [t] => exact .inr ⟨_, rfl⟩
  | s :: t :: rest =>
    have less := (List.pairwise_cons.mp descending).1 t (by simp)
    rw [powers s (by simp), powers t (by simp)] at less
    exact absurd less (lt_irrefl e)

/-- **The operands of a sum can be exchanged.** -/
theorem add_exchanged (p q : Poly) : SameOutcome (p.add q) (q.add p) := by
  rw [add, add]
  rcases commonSymbol_exchanged p q with ⟨name, left, right⟩ | ⟨⟨e, left⟩, e', right⟩
  · rw [left, right, bind_ok, bind_ok]
    refine sameOutcome_of_iff ?_ fun _ _ => ofTerms_eq_of_perm List.perm_append_comm
    rw [exists_ofTerms_iff, exists_ofTerms_iff, exists_collect_iff, exists_collect_iff]
    refine forall_congr' fun e => ?_
    rw [coefficientsAt_append, coefficientsAt_append]
    rcases p.coefficientsAt_terms e with none | ⟨a, one⟩
    · rw [none, List.nil_append, List.append_nil]
    · rcases q.coefficientsAt_terms e with none | ⟨b, other⟩
      · rw [none, List.nil_append, List.append_nil]
      · rw [one, other, List.singleton_append, List.singleton_append, Radical.sumFrom_pair,
          Radical.sumFrom_pair]
        exact ⟨.imp fun c => Radical.add_exchanged, .imp fun c => Radical.add_exchanged⟩
  · rw [left, right]
    exact sameOutcome_of_errors ⟨e, rfl⟩ ⟨e', rfl⟩

theorem mulTerm_comm (s t : Term) : mulTerm s t = mulTerm t s := by
  have product : s.coefficient.mul t.coefficient = t.coefficient.mul s.coefficient := by
    rw [Radical.mul, Radical.mul, mul_comm, mul_comm (s.coefficient.radicand : ℚ)]
  rw [mulTerm, mulTerm, product, add_comm]

/-- **The products of exchanged operands** are the same ones in another order. -/
theorem products_exchanged (multiplied : products ts us = .ok ss) :
    ∃ ss', products us ts = .ok ss' ∧ ss.Perm ss' := by
  have swapped : ((us.flatMap fun u => ts.map fun t => (u, t)).map Prod.swap).Perm
      (ts.flatMap fun t => us.map fun u => (t, u)) := by
    have product : Multiset.map Prod.swap ((us : Multiset Term) ×ˢ (ts : Multiset Term)) =
        (ts : Multiset Term) ×ˢ (us : Multiset Term) := Multiset.map_swap_product _ _
    rwa [Multiset.coe_product, Multiset.coe_product, Multiset.map_coe, Multiset.coe_eq_coe] at product
  obtain ⟨ss', run, perm⟩ := mapM_perm swapped.symm multiplied
  refine ⟨ss', ?_, perm⟩
  rw [List.mapM_map] at run
  rw [← run, products]
  congr 1
  funext x
  exact mulTerm_comm x.1 x.2

/-- **Products of exchanged operands** have the same outcome, or are formed from the same terms. -/
theorem mul_exchanged (p q : Poly) :
    SameOutcome (p.mul q) (q.mul p) ∨
      ∃ name ts us, products p.terms q.terms = .ok ts ∧ ts.Perm us ∧
        p.mul q = ofTerms name ts ∧ q.mul p = ofTerms name us := by
  rw [mul, mul]
  rcases commonSymbol_exchanged p q with ⟨name, left, right⟩ | ⟨⟨e, left⟩, e', right⟩
  · rw [left, right, bind_ok, bind_ok]
    cases multiplied : products p.terms q.terms with
    | ok ts =>
      obtain ⟨us, exchanged, perm⟩ := products_exchanged multiplied
      rw [exchanged]
      exact .inr ⟨name, ts, us, rfl, perm, rfl, rfl⟩
    | error e =>
      cases exchanged : products q.terms p.terms with
      | error e' => exact .inl (sameOutcome_of_errors ⟨e, rfl⟩ ⟨e', rfl⟩)
      | ok us =>
        obtain ⟨ts, run, -⟩ := products_exchanged exchanged
        cases multiplied.symm.trans run
  · rw [left, right]
    exact .inl (sameOutcome_of_errors ⟨e, rfl⟩ ⟨e', rfl⟩)

/-! ## The two orders -/

/-- **The order of the terms leaves no trace in a polynomial**, and it decides whether there is one
only if unlike radicals meet and cancel until one is left at each power; then it always does. Sums
can be exchanged in any case, and products as far as that goes for their terms. -/
theorem rearranged :
    (∀ (ms ns : List Monomial) (symbol : String), ms.Perm ns →
      (∀ p q, ofMonomials ms symbol = .ok p → ofMonomials ns symbol = .ok q → p = q) ∧
        (SameOutcome (ofMonomials ms symbol) (ofMonomials ns symbol) ∨
          OrderMatters (ms.map (·.term)))) ∧
    (∀ (ms : List Monomial) (symbol : String), OrderMatters (ms.map (·.term)) →
      (∀ ns, ms.Perm ns → ∃ names, ofMonomials ns symbol = .error (.severalVariables names)) ∨
        (∃ ns, ms.Perm ns ∧ ∃ p, ofMonomials ns symbol = .ok p) ∧
          ∃ ns, ms.Perm ns ∧ ∃ e, ofMonomials ns symbol = .error e) ∧
    ∀ p q : Poly,
      SameOutcome (p.add q) (q.add p) ∧
      (∀ r r', p.mul q = .ok r → q.mul p = .ok r' → r = r') ∧
      (SameOutcome (p.mul q) (q.mul p) ∨
        ∃ ts, products p.terms q.terms = .ok ts ∧ OrderMatters ts) := by
  refine ⟨fun ms ns symbol perm => ?_, fun ms symbol => ofMonomials_orders symbol,
    fun p q => ⟨add_exchanged p q, ?_⟩⟩
  · rcases ofMonomials_cases ms symbol with ⟨names, refused⟩ | ⟨name, formed⟩
    · rw [refused ms (.refl ms), refused ns perm]
      exact ⟨fun p q failed => (nomatch failed), .inl (.refl _)⟩
    · rw [formed ms (.refl ms), formed ns perm]
      exact ⟨fun p q => ofTerms_eq_of_perm (perm.map _), ofTerms_rearranged name (perm.map _)⟩
  · rcases mul_exchanged p q with same | ⟨name, ts, us, multiplied, perm, left, right⟩
    · refine ⟨fun r r' left right => ?_, .inl same⟩
      obtain ⟨a, first, second⟩ | ⟨⟨e, failed⟩, -⟩ := same
      · exact (Except.ok.inj (left.symm.trans first)).trans
          (Except.ok.inj (right.symm.trans second)).symm
      · cases failed.symm.trans left
    · rw [left, right]
      exact ⟨fun r r' => ofTerms_eq_of_perm perm,
        (ofTerms_rearranged name perm).imp_right fun matters => ⟨ts, multiplied, matters⟩⟩

/-! ### Orders that differ -/

theorem squareFree_two : Radical.SquareFree 2 :=
  have split : Radical.splitSquare 2 = .ok (1, 2) := by decide +kernel
  Radical.splitSquare_squareFree (by decide) split

theorem squareFree_three : Radical.SquareFree 3 :=
  have split : Radical.splitSquare 3 = .ok (1, 3) := by decide +kernel
  Radical.splitSquare_squareFree (by decide) split

/-- A multiple of `√2`. -/
def timesRootTwo (c : ℚ) : Radical := .ofParts c 2 squareFree_two

/-- A multiple of `√3`. -/
def timesRootThree (c : ℚ) : Radical := .ofParts c 3 squareFree_three

/-- The polynomial `x³ - x² + √3`. -/
def cubicRootThree : Poly where
  terms := [⟨.ofRat 1, 3⟩, ⟨.ofRat (-1), 2⟩, ⟨timesRootThree 1, 0⟩]
  symbol := "x"
  descending := by decide +kernel
  nonzero := by decide +kernel

/-- The polynomial `x³ + √2·x + √2`. -/
def cubicRootTwo : Poly where
  terms := [⟨.ofRat 1, 3⟩, ⟨timesRootTwo 1, 1⟩, ⟨timesRootTwo 1, 0⟩]
  symbol := "x"
  descending := by decide +kernel
  nonzero := by decide +kernel

/-- **Two orders that differ**: `√2·x + √3·x - √2·x` is refused, and `√2·x - √2·x + √3·x` is not.
The same goes for the two products of a pair of polynomials. -/
theorem not_rearranged :
    ([.make (timesRootTwo 1) 1 "x", .make (timesRootThree 1) 1 "x",
        .make (timesRootTwo (-1)) 1 "x"] : List Monomial).Perm
      [.make (timesRootTwo 1) 1 "x", .make (timesRootTwo (-1)) 1 "x",
        .make (timesRootThree 1) 1 "x"] ∧
    ¬SameOutcome
      (ofMonomials [.make (timesRootTwo 1) 1 "x", .make (timesRootThree 1) 1 "x",
        .make (timesRootTwo (-1)) 1 "x"] "")
      (ofMonomials [.make (timesRootTwo 1) 1 "x", .make (timesRootTwo (-1)) 1 "x",
        .make (timesRootThree 1) 1 "x"] "") ∧
    ¬SameOutcome (cubicRootThree.mul cubicRootTwo) (cubicRootTwo.mul cubicRootThree) := by
  refine ⟨.cons _ (.swap _ _ _), fun same => ?_, fun same => ?_⟩
  · exact absurd same.isOk_eq (by decide +kernel)
  · exact absurd same.isOk_eq (by decide +kernel)

end Poly

end ExactAlgebra
