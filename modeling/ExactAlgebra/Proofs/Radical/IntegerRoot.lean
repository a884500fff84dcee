import ExactAlgebra.Proofs.Radical.Power

/-!
# Integer roots are found

The search for an integer root looks at the middle of an interval of candidates and goes on with one
half of what is left. A root between the ends is never thrown away, and the first interval holds every
root that there can be; so a search without an answer shows that there is none. Every round leaves at
most half of the candidates, so the number of rounds is bounded by the binary digits of their number.

## Main statements

* `bisects_rootBetween` — the search ends, after a number of rounds that is known beforehand;
* `rootBetween_eq_some` — a root in the interval is found;
* `integerRoot?_eq_rootBetween` — looking at the size first changes nothing;
* `integerRoot?_eq_some_iff` — the exact integer root.

## Main definitions

* `Bisects` — a search, round by round, with its answer.
-/

namespace ExactAlgebra.Radical

variable {n degree lo hi r : Nat}

/-! ## Rounds -/

/-- **A search round by round**: from the candidates between `lo` and `hi` it comes to an answer in a
number of rounds. -/
inductive Bisects (n degree : Nat) : (lo hi rounds : Nat) → (answer : Option Nat) → Prop where
  /-- There is no candidate left. -/
  | empty {lo hi : Nat} : hi < lo → Bisects n degree lo hi 0 none
  /-- The candidate in the middle is the root. -/
  | found {lo hi : Nat} : lo ≤ hi → ((lo + hi) / 2) ^ degree = n →
      Bisects n degree lo hi 1 (some ((lo + hi) / 2))
  /-- The candidate in the middle is too small, and so are those below it. -/
  | upper {lo hi rounds : Nat} {answer : Option Nat} : lo ≤ hi → ((lo + hi) / 2) ^ degree < n →
      Bisects n degree ((lo + hi) / 2 + 1) hi rounds answer →
      Bisects n degree lo hi (rounds + 1) answer
  /-- The candidate in the middle is too large, and so are those above it. -/
  | lower {lo hi rounds : Nat} {answer : Option Nat} : lo ≤ hi → n < ((lo + hi) / 2) ^ degree →
      Bisects n degree lo ((lo + hi) / 2 - 1) rounds answer →
      Bisects n degree lo hi (rounds + 1) answer

/-- **The search ends**: as many rounds are enough as the number of candidates has binary digits. -/
theorem bisects_rootBetween (n degree bound : Nat) (positive : 0 < lo)
    (few : hi + 1 - lo < 2 ^ bound) :
    ∃ rounds ≤ bound, Bisects n degree lo hi rounds (rootBetween n degree lo hi) := by
  -- a round leaves at most half of the candidates, so the induction is on the binary digits
  induction bound generalizing lo hi with
  | zero =>
    have empty : hi < lo := by
      rw [pow_zero] at few
      omega
    refine ⟨0, le_rfl, ?_⟩
    rw [rootBetween, if_neg (by omega)]
    exact .empty empty
  | succ bound ih =>
    rw [pow_succ] at few
    rw [rootBetween]
    split
    · rename_i inside
      dsimp only
      split
      · rename_i hit
        exact ⟨1, by omega, .found inside.2 hit⟩
      · rename_i miss
        split
        · rename_i small
          obtain ⟨rounds, le, rest⟩ :=
            @ih ((lo + hi) / 2 + 1) hi (by omega) (by omega)
          exact ⟨rounds + 1, by omega, .upper inside.2 small rest⟩
        · rename_i large
          have above : n < ((lo + hi) / 2) ^ degree :=
            Nat.lt_of_le_of_ne (Nat.not_lt.mp large) fun same => miss same.symm
          obtain ⟨rounds, le, rest⟩ :=
            @ih lo ((lo + hi) / 2 - 1) positive (by omega)
          exact ⟨rounds + 1, by omega, .lower inside.2 above rest⟩
    · rename_i outside
      exact ⟨0, by omega, .empty (by omega)⟩

/-- **A root in the interval is found.** -/
theorem rootBetween_eq_some (proper : degree ≠ 0) (positive : 0 < lo) (above : lo ≤ r) (below : r ≤ hi)
    (power : r ^ degree = n) : rootBetween n degree lo hi = some r := by
  fun_induction rootBetween n degree lo hi with
  | case1 lo hi inside mid value hit =>
    exact congrArg some (Nat.pow_left_injective proper (hit.trans power.symm))
  | case2 lo hi inside mid value miss small ih =>
    -- the root is in the upper half
    have later : mid < r := by
      by_contra early
      have le : r ^ degree ≤ mid ^ degree := Nat.pow_le_pow_left (not_lt.mp early) degree
      exact absurd (power ▸ le) (not_le.mpr small)
    exact ih (Nat.succ_pos mid) later below
  | case3 lo hi inside mid value miss large ih =>
    -- the root is in the lower half
    have earlier : r < mid := by
      by_contra late
      have le : mid ^ degree ≤ r ^ degree := Nat.pow_le_pow_left (not_lt.mp late) degree
      exact miss (le_antisymm (power ▸ le) (not_lt.mp large))
    exact ih positive above (Nat.le_sub_one_of_lt earlier)
  | case4 lo hi outside => exact absurd ⟨positive, above.trans below⟩ outside

/-! ## The whole search -/

/-- **The upper end of the first interval** is above every root. -/
theorem root_le_of_pow (proper : degree ≠ 0) (power : r ^ degree = n) :
    r ≤ 2 ^ ((n.log2 + 1) / degree + 1) := by
  by_contra large
  have digits : n.log2 + 1 ≤ ((n.log2 + 1) / degree + 1) * degree := by
    rw [Nat.succ_mul]
    exact (Nat.lt_div_mul_add (Nat.pos_of_ne_zero proper)).le
  have contradiction : n < n := by
    calc n < 2 ^ (n.log2 + 1) := Nat.lt_log2_self
      _ ≤ 2 ^ (((n.log2 + 1) / degree + 1) * degree) := Nat.pow_le_pow_right two_pos digits
      _ = (2 ^ ((n.log2 + 1) / degree + 1)) ^ degree := pow_mul 2 _ degree
      _ ≤ r ^ degree := Nat.pow_le_pow_left (not_le.mp large).le degree
      _ = n := power
  exact lt_irrefl n contradiction

/-- A number with no more than `degree` binary digits is no power but of zero and one. -/
theorem root_lt_two (positive : n ≠ 0) (few : n.log2 < degree) (power : r ^ degree = n) : r < 2 := by
  by_contra large
  have below : n < 2 ^ degree := (Nat.log2_lt positive).mp few
  exact absurd (power ▸ Nat.pow_le_pow_left (not_lt.mp large) degree) (not_le.mpr below)

/-- **Looking at the number of digits first** changes nothing: the search would find no root. -/
theorem integerRoot?_eq_rootBetween (proper : degree ≠ 0) (large : 2 ≤ n) :
    integerRoot? n degree = rootBetween n degree 1 (2 ^ ((n.log2 + 1) / degree + 1)) := by
  rw [integerRoot?, if_neg (not_lt.mpr large)]
  split
  · rename_i few
    cases found : rootBetween n degree 1 (2 ^ ((n.log2 + 1) / degree + 1)) with
    | none => rfl
    | some r =>
      have power := pow_of_rootBetween found
      have small := root_lt_two (by omega) few power
      obtain rfl | rfl : r = 0 ∨ r = 1 := by omega
      · rw [zero_pow proper] at power
        omega
      · rw [one_pow] at power
        omega
  · rfl

/-- **The exact integer root** is found whenever there is one. -/
theorem integerRoot?_eq_some_iff (proper : degree ≠ 0) :
    integerRoot? n degree = some r ↔ r ^ degree = n := by
  refine ⟨pow_of_integerRoot? proper, fun power => ?_⟩
  rcases Nat.lt_or_ge n 2 with small | large
  · rw [integerRoot?, if_pos small]
    -- zero and one are their own roots
    obtain rfl | rfl : n = 0 ∨ n = 1 := by omega
    · rw [(pow_eq_zero_iff proper).mp power]
    · rw [(Nat.pow_eq_one.mp power).resolve_right proper]
  · have nonzero : r ≠ 0 := by
      rintro rfl
      rw [zero_pow proper] at power
      omega
    rw [integerRoot?_eq_rootBetween proper large]
    exact rootBetween_eq_some proper one_pos (Nat.one_le_iff_ne_zero.mpr nonzero)
      (root_le_of_pow proper power) power

/-- **The search for an integer root ends**, after a number of rounds that grows with the number of
binary digits, divided by the degree. -/
theorem bisects_integerRoot? (proper : degree ≠ 0) (large : 2 ≤ n) :
    ∃ rounds ≤ (n.log2 + 1) / degree + 2,
      Bisects n degree 1 (2 ^ ((n.log2 + 1) / degree + 1)) rounds (integerRoot? n degree) := by
  rw [integerRoot?_eq_rootBetween proper large]
  refine bisects_rootBetween n degree _ one_pos ?_
  rw [Nat.add_sub_cancel]
  exact Nat.pow_lt_pow_right one_lt_two (Nat.lt_succ_self _)

end ExactAlgebra.Radical
