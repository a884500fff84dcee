import ExactAlgebra.Decimal.Shortest
import ExactAlgebra.Proofs.Decimal.Rounding
import ExactAlgebra.Proofs.Text.Numeral

/-!
# Digits that read back

The search for the shortest digits of a double tries up to seventeen of them, and it finds some: on
the grid of decimals with seventeen digits the one that is nearest to the double is so close that it
is rounded back to it. What is found reads back by the test that it passed.

## Main statements

* `tenPow_length`, `decimalPosition_spec` — the number of digits, and the position of the first one;
* `ofDecimal_eq` — a decimal that is rounded to a double denotes it;
* `onGrid?_seventeen` — seventeen digits are enough;
* `shortest_spec` — the digits that are written read back.
-/

namespace ExactAlgebra.Binary64

open ExactAlgebra.Text
open ExactAlgebra.Rational (tenPow)

/-! ## Lengths -/

theorem tenPow_pos (e : ℤ) : 0 < tenPow e :=
  zpow_pos (by norm_num) e

theorem tenPow_add (e f : ℤ) : tenPow (e + f) = tenPow e * tenPow f :=
  zpow_add₀ (by norm_num) e f

theorem tenPow_lt_iff {e f : ℤ} : tenPow e < tenPow f ↔ e < f :=
  zpow_lt_zpow_iff_right₀ (by norm_num)

/-- A number lies between the powers of ten that its length gives. -/
theorem pow_length_natChars {n : ℕ} (nonzero : n ≠ 0) :
    10 ^ ((natChars n).length - 1) ≤ n ∧ n < 10 ^ (natChars n).length := by
  induction n using Nat.strongRecOn with
  | ind n ih =>
    rw [natChars_step]
    split
    · rename_i small
      simp only [List.length_singleton, Nat.sub_self, pow_zero, pow_one]
      omega
    · rename_i large
      obtain ⟨low, high⟩ := ih (n / 10) (by omega) (by omega)
      have some : 0 < (natChars (n / 10)).length := List.length_pos_iff.mpr (natChars_ne_nil _)
      rw [List.length_append, List.length_singleton, Nat.add_sub_cancel, pow_succ]
      obtain ⟨length, eq⟩ : ∃ length, (natChars (n / 10)).length = length + 1 :=
        ⟨_, (Nat.sub_add_cancel some).symm⟩
      rw [eq, Nat.add_sub_cancel] at low
      rw [eq, pow_succ] at high ⊢
      omega

theorem tenPow_length {n : ℕ} (nonzero : n ≠ 0) :
    tenPow ((natChars n).length - 1) ≤ (n : ℚ) ∧ (n : ℚ) < tenPow (natChars n).length := by
  obtain ⟨low, high⟩ := pow_length_natChars nonzero
  have some : 1 ≤ (natChars n).length := List.length_pos_iff.mpr (natChars_ne_nil n)
  constructor
  · rw [tenPow, ← Nat.cast_one, ← Nat.cast_sub some, zpow_natCast]
    exact_mod_cast low
  · rw [tenPow, zpow_natCast]
    exact_mod_cast high

/-- The first digit of a positive rational stands behind the power of ten before its position. -/
theorem decimalPosition_spec {q : ℚ} (pos : 0 < q) : tenPow (decimalPosition q - 1) ≤ q := by
  have num : q.num.natAbs ≠ 0 := Int.natAbs_ne_zero.mpr (Rat.num_pos.mpr pos).ne'
  have between {n : ℕ} (nonzero : n ≠ 0) : (10 : ℚ) ^ ((natChars n).length - 1 : ℤ) ≤ n ∧
      (n : ℚ) < 10 ^ ((natChars n).length - 1 + 1 : ℤ) := by
    rw [sub_add_cancel]
    exact tenPow_length nonzero
  obtain ⟨low, -⟩ := div_between_powers (by norm_num) (between num) (between q.den_ne_zero)
  rw [natAbs_num_div_den pos, sub_sub_sub_cancel_right] at low
  rw [decimalPosition]
  split
  · exact low
  · rename_i more
    rw [add_sub_cancel_right]
    exact not_lt.mp more

/-! ## Reading -/

/-- No double comes near to the bounds for the exponent. -/
theorem twoPow_lt_tenPow : twoPow 1075 < tenPow 400 := by
  rw [twoPow, tenPow, zpow_ofNat, zpow_ofNat]
  calc (2 : ℚ) ^ 1075 = (2 ^ 43) ^ 25 := pow_mul 2 43 25
    _ < (10 ^ 16) ^ 25 := pow_lt_pow_left₀ (by norm_num) (by positivity) (by norm_num)
    _ = 10 ^ 400 := (pow_mul 10 16 25).symm

/-- **A decimal that is rounded to a double** other than zero denotes it. The bounds for the
exponent do not come in. -/
theorem ofDecimal_eq (negative : Bool) {n : ℕ} {e : ℤ} {q : ℚ} (nonzero : q ≠ 0)
    (rounded : nearest? ((n : ℚ) * tenPow e) = some q) :
    ofDecimal negative n e = .finite negative q := by
  have some : n ≠ 0 := by
    rintro rfl
    simp [nearest?, nonzero.symm] at rounded
  have pos : 0 < (n : ℚ) * tenPow e :=
    mul_pos (by exact_mod_cast Nat.pos_of_ne_zero some) (tenPow_pos e)
  obtain ⟨low, high⟩ := bounds_of_nearest? pos rounded nonzero
  obtain ⟨lowDigits, highDigits⟩ := tenPow_length some
  have under : (n : ℚ) * tenPow e < tenPow (e + (natChars n).length) := by
    rw [add_comm, tenPow_add]
    exact mul_lt_mul_of_pos_right highDigits (tenPow_pos e)
  have above : tenPow (e + (natChars n).length - 1) ≤ (n : ℚ) * tenPow e := by
    rw [add_sub_assoc, add_comm, tenPow_add]
    exact mul_le_mul_of_nonneg_right lowDigits (tenPow_pos e).le
  have least : -400 ≤ e + (natChars n).length := by
    have power : tenPow (-400) < twoPow (-1075) := by
      rw [tenPow, twoPow, zpow_neg, zpow_neg]
      exact inv_strictAnti₀ (twoPow_pos 1075) twoPow_lt_tenPow
    exact (tenPow_lt_iff.mp (power.trans (low.trans_lt under))).le
  have greatest : e + (natChars n).length ≤ 400 := by
    have power : twoPow 1025 < tenPow 400 :=
      (twoPow_le_iff.mpr (by omega)).trans_lt twoPow_lt_tenPow
    have := tenPow_lt_iff.mp (above.trans_lt (high.trans power))
    omega
  rw [ofDecimal, if_neg (by omega), if_neg (by omega), rounded]

/-! ## The search -/

/-- What is found on a grid reads back. -/
theorem nearest?_onGrid {q unit : ℚ} {digits : ℕ} (found : onGrid? q unit = some digits) :
    nearest? ((digits : ℚ) * unit) = some q := by
  have passed (closest other : ℕ) (test : (if readsBack q closest unit then some closest
      else if readsBack q other unit then some other else none) = some digits) :
      readsBack q digits unit = true := by
    split at test
    · rename_i back
      rwa [← Option.some.inj test]
    · split at test
      · rename_i back
        rwa [← Option.some.inj test]
      · cases test
  exact of_decide_eq_true (passed _ _ found)

/-- **Seventeen digits are enough**: the nearest decimal with so many is close enough. -/
theorem onGrid?_seventeen {q : ℚ} (pos : 0 < q) (double : nearest? q = some q) :
    (onGrid? q (tenPow (decimalPosition q - 17))).isSome := by
  have unit := tenPow_pos (decimalPosition q - 17)
  have fine : tenPow (decimalPosition q - 17) ≤ q / 10 ^ 16 := by
    rw [le_div_iff₀ (by positivity)]
    calc tenPow (decimalPosition q - 17) * 10 ^ 16
        = tenPow (decimalPosition q - 17 + 16) := (tenPow_add _ 16).symm
      _ = tenPow (decimalPosition q - 1) := by
          congr 1
          ring
      _ ≤ q := decimalPosition_spec pos
  have apart := abs_sub_roundEven_le (div_pos pos unit).le
  rw [abs_div_sub unit, div_le_iff₀ unit, abs_sub_comm] at apart
  have close : readsBack q (roundEven (q / tenPow (decimalPosition q - 17)))
      (tenPow (decimalPosition q - 17)) = true := by
    refine decide_eq_true (nearest?_of_close pos double (apart.trans ?_))
    linarith
  rw [onGrid?, if_pos close]
  rfl

/-- The digits of a number without the zeros at its end are those of a number. -/
theorem significant_spec {n : ℕ} (nonzero : n ≠ 0) :
    ∃ m t : ℕ, m ≠ 0 ∧ n = m * 10 ^ t ∧ significant n = natChars m ∧
      (natChars n).length = (natChars m).length + t := by
  induction n using Nat.strongRecOn with
  | ind n ih =>
    by_cases small : n < 10
    · refine ⟨n, 0, nonzero, by simp, ?_, rfl⟩
      have digit : ∀ d < 10, d ≠ 0 → digitChar d ≠ '0' := by decide
      rw [significant, natChars_step, if_pos small]
      simp [digit n small nonzero]
    by_cases zero : n % 10 = 0
    · obtain ⟨m, t, some, eq, digits, length⟩ := ih (n / 10) (by omega) (by omega)
      refine ⟨m, t + 1, some, ?_, ?_, ?_⟩
      · rw [pow_succ, ← mul_assoc, ← eq]
        omega
      · rw [← digits, significant, natChars_step, if_neg small, zero]
        simp [significant, digitChar]
      · rw [natChars_step, if_neg small, List.length_append, length]
        rfl
    · refine ⟨n, 0, nonzero, by simp, ?_, rfl⟩
      have digit : ∀ d < 10, d ≠ 0 → digitChar d ≠ '0' := by decide
      rw [significant, natChars_step, if_neg small]
      simp [digit (n % 10) (by omega) zero]

/-- **The digits that are written** are those of a number that reads back with the position of the
decimal point. -/
theorem shortest_spec {q : ℚ} (pos : 0 < q) (double : nearest? q = some q) :
    ∃ m : ℕ, m ≠ 0 ∧ (shortest q).1 = natChars m ∧
      nearest? ((m : ℚ) * tenPow ((shortest q).2 - (natChars m).length)) = some q := by
  unfold shortest
  dsimp only
  split
  · rename_i digits places found
    obtain ⟨n, -, here⟩ := List.exists_of_findSome?_eq_some found
    obtain ⟨tried, grid, same⟩ := Option.map_eq_some_iff.mp here
    obtain ⟨rfl, rfl⟩ := Prod.mk.inj same
    have back := nearest?_onGrid grid
    have nonzero : tried ≠ 0 := by
      rintro rfl
      simp [nearest?, pos.ne] at back
    obtain ⟨m, t, some, eq, written, length⟩ := significant_spec nonzero
    refine ⟨m, some, written, ?_⟩
    -- the zeros that are left out at the end move the last digit, not the first one
    rw [← back, length, Nat.cast_add, add_sub_assoc, add_sub_cancel_left, tenPow_add,
      show tenPow (t : ℤ) = 10 ^ t from zpow_natCast 10 t, eq]
    push_cast
    ring_nf
  · rename_i missing
    have enough := onGrid?_seventeen pos double
    have none := List.findSome?_eq_none_iff.mp missing 16 (by simp)
    rw [Option.map_eq_none_iff] at none
    rw [show decimalPosition q - 17 = decimalPosition q - ((16 : ℕ) + 1 : ℤ) by norm_num, none]
      at enough
    cases enough

end ExactAlgebra.Binary64
