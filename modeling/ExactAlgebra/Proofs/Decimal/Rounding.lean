import ExactAlgebra.Decimal.Binary64
import Mathlib.Algebra.Order.Field.Rat
import Mathlib.Algebra.Order.Floor.Ring
import Mathlib.Data.Rat.Floor
import Mathlib.Tactic.Linarith
import Mathlib.Tactic.NormNum
import Mathlib.Tactic.Positivity
import Mathlib.Tactic.Ring

/-!
# Rounding to doubles

The doubles near a positive rational are the multiples of a power of two. The exponent of that power
is the one for which the rational takes 53 binary digits, or the least exponent there is. With it,
rounding becomes rounding to a whole number, and two facts about doubles follow: a double is rounded
to itself, and so is everything that is close enough to it.

## Main statements

* `exists_isSpacing`, `spacing_eq` — the exponent exists, and determines the spacing;
* `nearest?_nearest` — what was rounded is a double;
* `nearest?_of_close` — a relative error below `10 ^ (-16) / 2` is rounded away;
* `bounds_of_nearest?` — what is rounded to a double other than zero.

## Main definitions

* `IsSpacing` — the exponent of the spacing at a rational;
* `Binary64.IsReal` — the values that a double can have.
-/

namespace ExactAlgebra.Binary64

/-! ## Powers -/

/-- A quotient lies between powers as its numerator and its denominator do. -/
theorem div_between_powers {b n d : ℚ} {i j : ℤ} (base : 0 < b) (num : b ^ i ≤ n ∧ n < b ^ (i + 1))
    (den : b ^ j ≤ d ∧ d < b ^ (j + 1)) : b ^ (i - j - 1) ≤ n / d ∧ n / d < b ^ (i - j + 1) := by
  have pos : 0 < d := (zpow_pos base j).trans_le den.1
  constructor
  · rw [le_div_iff₀ pos]
    calc b ^ (i - j - 1) * d ≤ b ^ (i - j - 1) * b ^ (j + 1) :=
          mul_le_mul_of_nonneg_left den.2.le (zpow_pos base _).le
      _ = b ^ i := by
          rw [← zpow_add₀ base.ne']
          congr 1
          ring
      _ ≤ n := num.1
  · rw [div_lt_iff₀ pos]
    calc n < b ^ (i + 1) := num.2
      _ = b ^ (i - j + 1) * b ^ j := by
          rw [← zpow_add₀ base.ne']
          congr 1
          ring
      _ ≤ b ^ (i - j + 1) * d := mul_le_mul_of_nonneg_left den.1 (zpow_pos base _).le

theorem natAbs_num_div_den {q : ℚ} (pos : 0 < q) : (q.num.natAbs : ℚ) / q.den = q := by
  rw [Nat.cast_natAbs, abs_of_pos (Rat.num_pos.mpr pos), Rat.num_div_den]

theorem twoPow_pos (e : ℤ) : 0 < twoPow e :=
  zpow_pos two_pos e

theorem twoPow_add (e f : ℤ) : twoPow (e + f) = twoPow e * twoPow f :=
  zpow_add₀ two_ne_zero e f

theorem twoPow_le_iff {e f : ℤ} : twoPow e ≤ twoPow f ↔ e ≤ f :=
  zpow_le_zpow_iff_right₀ one_lt_two

theorem twoPow_lt_iff {e f : ℤ} : twoPow e < twoPow f ↔ e < f :=
  zpow_lt_zpow_iff_right₀ one_lt_two

/-- A number lies between the powers of two that its length gives. -/
theorem twoPow_log2 {n : ℕ} (nonzero : n ≠ 0) :
    twoPow n.log2 ≤ (n : ℚ) ∧ (n : ℚ) < twoPow (n.log2 + 1) := by
  constructor
  · rw [twoPow, zpow_natCast]
    exact_mod_cast Nat.log2_self_le nonzero
  · rw [twoPow, ← Nat.cast_succ, zpow_natCast]
    exact_mod_cast Nat.lt_log2_self

/-- **The binary exponent** of a positive rational. -/
theorem binaryExponent_spec {q : ℚ} (pos : 0 < q) :
    twoPow (binaryExponent q) ≤ q ∧ q < twoPow (binaryExponent q + 1) := by
  have num : q.num.natAbs ≠ 0 := Int.natAbs_ne_zero.mpr (Rat.num_pos.mpr pos).ne'
  obtain ⟨low, high⟩ := div_between_powers two_pos (twoPow_log2 num) (twoPow_log2 q.den_ne_zero)
  rw [natAbs_num_div_den pos] at low high
  rw [binaryExponent]
  split
  · rename_i less
    rw [sub_add_cancel]
    exact ⟨low, less⟩
  · rename_i more
    exact ⟨not_lt.mp more, high⟩

/-! ## Whole numbers -/

/-- **Rounding to a whole number** misses by one half at most. -/
theorem abs_sub_roundEven_le {q : ℚ} (nonneg : 0 ≤ q) : |q - roundEven q| ≤ 1 / 2 := by
  have floor : (q.floor.toNat : ℚ) = q.floor := by
    have whole : 0 ≤ q.floor := Rat.le_floor_iff.mpr (by exact_mod_cast nonneg)
    exact_mod_cast congrArg (fun n : ℤ => (n : ℚ)) (Int.toNat_of_nonneg whole)
  have low : (q.floor : ℚ) ≤ q := Rat.floor_le q
  have high : q < q.floor + 1 := by exact_mod_cast Rat.lt_floor_add_one q
  rw [roundEven, abs_le]
  split_ifs <;> push_cast <;> constructor <;> linarith

/-- Distances in multiples of a unit. -/
theorem abs_div_sub {unit : ℚ} (pos : 0 < unit) (x k : ℚ) :
    |x / unit - k| = |x - k * unit| / unit := by
  rw [← abs_of_pos pos, ← abs_div, abs_of_pos pos, sub_div, mul_div_cancel_right₀ _ pos.ne']

/-- What is nearer than one half to a whole number is rounded to it. -/
theorem roundEven_eq {q : ℚ} {n : ℕ} (nonneg : 0 ≤ q) (near : |q - n| < 1 / 2) :
    roundEven q = n := by
  have apart := abs_sub_roundEven_le nonneg
  have close : |((roundEven q : ℤ) : ℚ) - ((n : ℤ) : ℚ)| < 1 := by
    push_cast
    calc |(roundEven q : ℚ) - n| = |(q - n) - (q - roundEven q)| := by ring_nf
      _ ≤ |q - n| + |q - roundEven q| := abs_sub _ _
      _ < 1 := by linarith
  have zero : |(roundEven q : ℤ) - n| < 1 := by exact_mod_cast close
  have := Int.abs_lt_one_iff.mp zero
  omega

/-! ## Spacing -/

/-- **The exponent of the spacing** at a positive rational: the least one there is, or the one for
which the rational takes 53 binary digits. -/
structure IsSpacing (q : ℚ) (t : ℤ) : Prop where
  least : -1074 ≤ t
  lt : q < twoPow (t + 53)
  le : t = -1074 ∨ twoPow (t + 52) ≤ q

/-- A lower exponent belongs to a lower rational. -/
theorem IsSpacing.mono {p q : ℚ} {s t : ℤ} (hp : IsSpacing p s) (hq : IsSpacing q t) (le : p ≤ q) :
    s ≤ t := by
  rcases hp.le with least | digits
  · exact least.trans_le hq.least
  · have := twoPow_lt_iff.mp ((digits.trans le).trans_lt hq.lt)
    omega

theorem exists_isSpacing {q : ℚ} (pos : 0 < q) : ∃ t, IsSpacing q t ∧ spacing q = twoPow t := by
  obtain ⟨low, high⟩ := binaryExponent_spec pos
  refine ⟨_, ⟨?_, ?_, ?_⟩, rfl⟩
  · split <;> omega
  · refine high.trans_le (twoPow_le_iff.mpr ?_)
    split <;> omega
  · split
    · exact .inl rfl
    · right
      rwa [sub_add_cancel]

/-- **The spacing** at a positive rational. -/
theorem spacing_eq {q : ℚ} (pos : 0 < q) {t : ℤ} (at_q : IsSpacing q t) : spacing q = twoPow t := by
  obtain ⟨s, other, eq⟩ := exists_isSpacing pos
  rw [eq, (other.mono at_q le_rfl).antisymm (at_q.mono other le_rfl)]

/-- **Rounding** is rounding of the multiple of the spacing. -/
theorem nearest?_eq {q : ℚ} (pos : 0 < q) {t : ℤ} (at_q : IsSpacing q t) :
    nearest? q = if (roundEven (q / twoPow t) : ℚ) * twoPow t < twoPow 1024
      then some ((roundEven (q / twoPow t) : ℚ) * twoPow t) else none := by
  rw [nearest?, if_neg pos.ne', spacing_eq pos at_q]

/-- What is nearer to a multiple of the spacing than half of it is rounded to that. -/
theorem nearest?_eq_some {x : ℚ} (pos : 0 < x) {t : ℤ} (at_x : IsSpacing x t) {k : ℕ}
    (near : |x - k * twoPow t| < twoPow t / 2) (bounded : (k : ℚ) * twoPow t < twoPow 1024) :
    nearest? x = some (k * twoPow t) := by
  have unit := twoPow_pos t
  have whole : roundEven (x / twoPow t) = k := by
    refine roundEven_eq (div_pos pos unit).le ?_
    rw [abs_div_sub unit, div_lt_iff₀ unit]
    linarith
  rw [nearest?_eq pos at_x, whole, if_pos bounded]

/-! ## Doubles -/

/-- A multiple of a power of two is one of every lower power. -/
theorem multiple_lower (k : ℕ) {s t : ℤ} (lower : s ≤ t) :
    ∃ l : ℕ, (k : ℚ) * twoPow t = l * twoPow s := by
  obtain ⟨d, rfl⟩ := Int.le.dest lower
  refine ⟨k * 2 ^ d, ?_⟩
  rw [twoPow_add, twoPow, twoPow, zpow_natCast]
  push_cast
  ring

/-- A rational takes no more than 53 binary digits in multiples of its spacing. -/
theorem IsSpacing.lt_mul {q : ℚ} {t : ℤ} (at_q : IsSpacing q t) : q < 2 ^ 53 * twoPow t := by
  have := at_q.lt
  rwa [add_comm, twoPow_add] at this

/-- **A short multiple of a power of two** is a double, unless it is too large. -/
theorem nearest?_multiple {k : ℕ} {t : ℤ} (short : k < 2 ^ 53) (least : -1074 ≤ t)
    (bounded : (k : ℚ) * twoPow t < twoPow 1024) :
    nearest? ((k : ℚ) * twoPow t) = some ((k : ℚ) * twoPow t) := by
  rcases Nat.eq_zero_or_pos k with rfl | some
  · simp [nearest?]
  have pos : 0 < (k : ℚ) * twoPow t := mul_pos (by exact_mod_cast some) (twoPow_pos t)
  obtain ⟨s, at_q, -⟩ := exists_isSpacing pos
  have fine : s ≤ t := by
    rcases at_q.le with eq | digits
    · omega
    · have high : (k : ℚ) * twoPow t < twoPow (t + 53) := by
        rw [add_comm, twoPow_add]
        refine mul_lt_mul_of_pos_right ?_ (twoPow_pos t)
        rw [twoPow]
        exact_mod_cast short
      have := twoPow_lt_iff.mp (digits.trans_lt high)
      omega
  -- it is a multiple of the spacing there, which is not greater
  obtain ⟨l, multiple⟩ := multiple_lower k fine
  rw [multiple] at pos at_q bounded ⊢
  refine nearest?_eq_some pos at_q ?_ bounded
  rw [sub_self, abs_zero]
  exact half_pos (twoPow_pos s)

/-- A double is a multiple of its spacing. -/
theorem exists_multiple {x q : ℚ} (pos : 0 < x) {t : ℤ} (at_x : IsSpacing x t)
    (rounded : nearest? x = some q) :
    ∃ k : ℕ, q = k * twoPow t ∧ |x - q| ≤ twoPow t / 2 ∧ q < twoPow 1024 := by
  have unit := twoPow_pos t
  rw [nearest?_eq pos at_x] at rounded
  split at rounded
  · rename_i bounded
    obtain rfl := Option.some.inj rounded
    refine ⟨_, rfl, ?_, bounded⟩
    have apart := abs_sub_roundEven_le (div_pos pos unit).le
    rw [abs_div_sub unit, div_le_iff₀ unit] at apart
    linarith
  · cases rounded

/-- **What was rounded is a double**, and is rounded to itself. -/
theorem nearest?_nearest {x q : ℚ} (nonneg : 0 ≤ x) (rounded : nearest? x = some q) :
    nearest? q = some q := by
  rcases nonneg.eq_or_lt with rfl | pos
  · rw [nearest?, if_pos rfl] at rounded
    obtain rfl := Option.some.inj rounded
    rfl
  obtain ⟨t, at_x, -⟩ := exists_isSpacing pos
  obtain ⟨k, rfl, near, bounded⟩ := exists_multiple pos at_x rounded
  have unit := twoPow_pos t
  -- the multiple has 53 binary digits, or is the next power of two
  have digits : k ≤ 2 ^ 53 := by
    have close : (k : ℚ) * twoPow t < (2 ^ 53 + 1) * twoPow t := by
      have high := at_x.lt_mul
      have := (abs_le.mp near).1
      linarith
    have : (k : ℚ) < 2 ^ 53 + 1 := lt_of_mul_lt_mul_right close unit.le
    have : k < 2 ^ 53 + 1 := by exact_mod_cast this
    omega
  rcases digits.lt_or_eq with short | rfl
  · exact nearest?_multiple short at_x.least bounded
  · have power : ((2 ^ 53 : ℕ) : ℚ) * twoPow t = (1 : ℕ) * twoPow (t + 53) := by
      rw [add_comm, twoPow_add, Nat.cast_one, one_mul, Nat.cast_pow, Nat.cast_ofNat,
        ← zpow_natCast]
      rfl
    rw [power] at bounded ⊢
    exact nearest?_multiple (by norm_num) (by have := at_x.least; omega) bounded

/-- **What is close enough to a double is rounded to it.** The relative error may be as great as
that of seventeen decimal digits. -/
theorem nearest?_of_close {x q : ℚ} (pos : 0 < q) (double : nearest? q = some q)
    (close : |x - q| ≤ q / (2 * 10 ^ 16)) : nearest? x = some q := by
  obtain ⟨under, above⟩ := abs_le.mp close
  have positive : 0 < x := by linarith
  obtain ⟨t, at_q, -⟩ := exists_isSpacing pos
  obtain ⟨s, at_x, -⟩ := exists_isSpacing positive
  obtain ⟨k, multiple, -, bounded⟩ := exists_multiple pos at_q double
  -- the spacing is not greater than that of the double, for the next power of two is too far away
  have fine : s ≤ t := by
    by_contra coarse
    have unit := twoPow_pos t
    have short := at_q.lt_mul
    rw [multiple] at short
    have next : k + 1 ≤ 2 ^ 53 := by exact_mod_cast lt_of_mul_lt_mul_right short unit.le
    have room : ((k : ℚ) + 1) * twoPow t ≤ 2 ^ 53 * twoPow t :=
      mul_le_mul_of_nonneg_right (by exact_mod_cast next) unit.le
    have beyond : 2 ^ 53 * twoPow t ≤ x := by
      rcases at_x.le with least | digits
      · have := at_q.least
        omega
      · refine le_trans ?_ digits
        have : twoPow (53 + t) ≤ twoPow (s + 52) := twoPow_le_iff.mpr (by omega)
        rwa [twoPow_add] at this
    linarith
  obtain ⟨l, finer⟩ := multiple_lower k fine
  rw [multiple, finer] at close bounded pos ⊢
  refine nearest?_eq_some positive at_x (close.trans_lt ?_) bounded
  have short := at_x.lt_mul
  have := (abs_le.mp close).1
  linarith

/-- **What is rounded to a double other than zero** is neither too small nor too large. -/
theorem bounds_of_nearest? {x q : ℚ} (pos : 0 < x) (rounded : nearest? x = some q)
    (nonzero : q ≠ 0) : twoPow (-1075) ≤ x ∧ x < twoPow 1025 := by
  obtain ⟨t, at_x, -⟩ := exists_isSpacing pos
  obtain ⟨k, rfl, near, bounded⟩ := exists_multiple pos at_x rounded
  obtain ⟨under, above⟩ := abs_le.mp near
  have unit := twoPow_pos t
  have one : 1 ≤ (k : ℚ) := by
    exact_mod_cast Nat.one_le_iff_ne_zero.mpr fun zero => nonzero (by simp [zero])
  have least : twoPow t ≤ k * twoPow t := le_mul_of_one_le_left unit.le one
  have double (e : ℤ) : twoPow (1 + e) = 2 * twoPow e := by
    rw [twoPow_add, twoPow, zpow_one]
  constructor
  · have low : twoPow (1 + -1075) ≤ twoPow t := twoPow_le_iff.mpr at_x.least
    rw [double] at low
    linarith
  · have high := double 1024
    norm_num at high
    linarith

/-! ## Values -/

/-- **The values that a double can have.** -/
def IsReal : Binary64 → Prop
  | nan | infinite _ => True
  | finite _ q => nearest? q = some q

/-- A double is not negative but for its sign. -/
theorem nonneg_of_nearest? {q : ℚ} (double : nearest? q = some q) : 0 ≤ q := by
  unfold nearest? at double
  split at double
  · rename_i zero
    exact zero.ge
  · dsimp only at double
    split at double
    · rw [← Option.some.inj double]
      exact mul_nonneg (Nat.cast_nonneg _) (twoPow_pos _).le
    · cases double

/-- **A decimal denotes a double.** -/
theorem isReal_ofDecimal (negative : Bool) (n : ℕ) (e : ℤ) : (ofDecimal negative n e).IsReal := by
  have nonneg : 0 ≤ (n : ℚ) * Rational.tenPow e :=
    mul_nonneg (Nat.cast_nonneg n) (zpow_nonneg (by norm_num) e)
  rw [ofDecimal]
  split
  · rfl
  · split
    · trivial
    · split
      · rename_i rounded
        exact nearest?_nearest nonneg rounded
      · trivial

end ExactAlgebra.Binary64
