import ExactAlgebra.Rational.Basic
import Mathlib.Algebra.GCDMonoid.Multiset
import Mathlib.Algebra.GCDMonoid.Nat
import Mathlib.Algebra.Group.Int.Units
import Mathlib.Algebra.Group.Subgroup.Order
import Mathlib.Algebra.Group.Subgroup.ZPowers.Basic
import Mathlib.Algebra.Order.Field.Basic
import Mathlib.Algebra.Order.Field.Rat
import Mathlib.Data.Int.GCD
import Mathlib.Data.Nat.GCD.Basic
import Mathlib.Data.Rat.Lemmas
import Mathlib.Data.Set.List
import Mathlib.Tactic.NormNum
import Mathlib.Tactic.Ring

/-!
# The content of a list of rationals

The content is a running greatest common divisor of numerators over a running least common multiple
of denominators. Neither gets zero once a value was not zero. As long as both are coprime, their
quotient is the greatest rational of which all values so far are whole multiples: it is a multiple of
everything that they all are multiples of. So the integers that are left without it have no common
divisor, and no other positive number leaves such integers.

## Main statements

* `content_pos` — the content is positive unless all values are zero;
* `content_mem_iff` — the content is a greatest common divisor;
* `content_multiples` — the content of multiples;
* `areCoprime_div_content`, `eq_content_of_areCoprime` — what is left without the content;
* `content_leaves_coprime` — both together.

## Main definitions

* `AreCoprime` — coprime integers.
-/

namespace ExactAlgebra.Rational

/-- The running multiple of the denominators stays positive, and the running divisor of the
numerators is positive from the first value on that is not zero. -/
theorem contentStep_pos {state : Nat × Nat} (positive : 0 < state.2) (values : List ℚ) :
    0 < (values.foldl contentStep state).2 ∧
      (0 < state.1 ∨ (∃ q ∈ values, q ≠ 0) → 0 < (values.foldl contentStep state).1) := by
  induction values generalizing state with
  | nil => simpa using positive
  | cons q rest ih =>
    rw [List.foldl_cons]
    by_cases zero : q = 0
    · have same : contentStep state q = state := if_pos zero
      rw [same]
      obtain ⟨denominators, numerators⟩ := ih positive
      refine ⟨denominators, fun some => numerators ?_⟩
      rcases some with before | ⟨r, mem, nonzero⟩
      · exact .inl before
      · rcases List.mem_cons.mp mem with rfl | mem
        · exact absurd zero nonzero
        · exact .inr ⟨r, mem, nonzero⟩
    · have step : contentStep state q = (Nat.gcd state.1 q.num.natAbs, Nat.lcm state.2 q.den) :=
        if_neg zero
      have numerator : 0 < q.num.natAbs := Int.natAbs_pos.mpr (Rat.num_ne_zero.mpr zero)
      rw [step]
      have multiple : 0 < (Nat.gcd state.1 q.num.natAbs, Nat.lcm state.2 q.den).2 :=
        Nat.lcm_pos positive q.den_pos
      obtain ⟨denominators, numerators⟩ := ih multiple
      exact ⟨denominators, fun _ => numerators (.inl (Nat.gcd_pos_of_pos_right _ numerator))⟩

theorem content_eq (values : List ℚ) :
    content values =
      if (values.foldl contentStep (0, 1)).1 = 0 then 0
      else ((values.foldl contentStep (0, 1)).1 : ℚ) / ((values.foldl contentStep (0, 1)).2 : ℚ) := rfl

/-- **The content is positive** unless all values are zero. -/
theorem content_pos {values : List ℚ} (some : ∃ q ∈ values, q ≠ 0) : 0 < content values := by
  have start : 0 < ((0, 1) : Nat × Nat).2 := Nat.one_pos
  obtain ⟨denominators, numerators⟩ := contentStep_pos start values
  have positive := numerators (.inr some)
  have above : (0 : ℚ) < (values.foldl contentStep (0, 1)).1 := Nat.cast_pos.mpr positive
  have below : (0 : ℚ) < (values.foldl contentStep (0, 1)).2 := Nat.cast_pos.mpr denominators
  rw [content_eq, if_neg positive.ne']
  exact div_pos above below

/-! ## Common divisors of two quotients -/

section Quotients

variable {g l n d : ℕ}

/-- With both quotients over the common denominator, the numerators have no other common divisors
than before. -/
theorem gcd_mul_div_gcd (denominator : 0 < l) (lowest : g.Coprime l) (lowest' : n.Coprime d) :
    Nat.gcd (g * (d / Nat.gcd l d)) (n * (l / Nat.gcd l d)) = Nat.gcd g n := by
  have left : d / Nat.gcd l d ∣ d := Nat.div_dvd_of_dvd (Nat.gcd_dvd_right l d)
  have right : l / Nat.gcd l d ∣ l := Nat.div_dvd_of_dvd (Nat.gcd_dvd_left l d)
  have apart : (d / Nat.gcd l d).Coprime (l / Nat.gcd l d) :=
    (Nat.coprime_div_gcd_div_gcd (Nat.gcd_pos_of_pos_left d denominator)).symm
  have first : (d / Nat.gcd l d).Coprime (n * (l / Nat.gcd l d)) :=
    Nat.Coprime.mul_right (lowest'.symm.coprime_dvd_left left) apart
  have second : (l / Nat.gcd l d).Coprime g := lowest.symm.coprime_dvd_left right
  rw [first.gcd_mul_right_cancel, Nat.gcd_comm, second.gcd_mul_right_cancel, Nat.gcd_comm]

/-- A quotient over a multiple of its denominator. -/
theorem div_eq_of_mul_eq {m k : ℕ} (g : ℕ) (factor : l * k = m) (nonzero : m ≠ 0) :
    (g : ℚ) / l = (g * k : ℕ) / m := by
  have share : (k : ℚ) ≠ 0 := by
    rintro zero
    rw [← factor, Nat.cast_eq_zero.mp zero, Nat.mul_zero] at nonzero
    exact nonzero rfl
  rw [← factor, Nat.cast_mul, Nat.cast_mul, mul_div_mul_right _ _ share]

/-- **The greatest common divisor of two quotients** in lowest terms: it is a multiple of `r` exactly
if both of them are. -/
theorem gcd_div_lcm_mem_iff (denominator : 0 < l) (denominator' : 0 < d) (lowest : g.Coprime l)
    (lowest' : n.Coprime d) (r : ℚ) :
    (Nat.gcd g n : ℚ) / Nat.lcm l d ∈ AddSubgroup.zmultiples r ↔
      (g : ℚ) / l ∈ AddSubgroup.zmultiples r ∧ (n : ℚ) / d ∈ AddSubgroup.zmultiples r := by
  have left : l * (d / Nat.gcd l d) = Nat.lcm l d := (Nat.mul_div_assoc l (Nat.gcd_dvd_right l d)).symm
  have right : d * (l / Nat.gcd l d) = Nat.lcm l d := by
    rw [Nat.lcm_comm, Nat.gcd_comm]
    exact (Nat.mul_div_assoc d (Nat.gcd_dvd_right d l)).symm
  have common : Nat.lcm l d ≠ 0 := (Nat.lcm_pos denominator denominator').ne'
  have quotient := div_eq_of_mul_eq g left common
  have quotient' := div_eq_of_mul_eq n right common
  rw [quotient, quotient', ← gcd_mul_div_gcd denominator lowest lowest']
  generalize g * (d / Nat.gcd l d) = a, n * (l / Nat.gcd l d) = b, Nat.lcm l d = m
  constructor
  · intro mem
    obtain ⟨a', factor⟩ := Nat.gcd_dvd_left a b
    obtain ⟨b', factor'⟩ := Nat.gcd_dvd_right a b
    constructor
    · have multiple := AddSubgroup.nsmul_mem _ mem a'
      rwa [nsmul_eq_mul, mul_div_assoc', mul_comm, ← Nat.cast_mul, ← factor] at multiple
    · have multiple := AddSubgroup.nsmul_mem _ mem b'
      rwa [nsmul_eq_mul, mul_div_assoc', mul_comm, ← Nat.cast_mul, ← factor'] at multiple
  · rintro ⟨mem, mem'⟩
    have bezout := congrArg (Int.cast : ℤ → ℚ) (Nat.gcd_eq_gcd_ab a b)
    have combination := AddSubgroup.add_mem _ (AddSubgroup.zsmul_mem _ mem (Nat.gcdA a b))
      (AddSubgroup.zsmul_mem _ mem' (Nat.gcdB a b))
    push_cast at bezout
    convert combination using 1
    rw [bezout, zsmul_eq_mul, zsmul_eq_mul]
    ring

end Quotients

/-! ## The content as a greatest common divisor -/

/-- A running divisor and a running multiple that are coprime stay coprime, and their quotient has
the common divisors that it had, as far as the values have them too. -/
theorem contentStep_mem_iff (state : Nat × Nat) (positive : 0 < state.2)
    (lowest : state.1.Coprime state.2) (values : List ℚ) (r : ℚ) :
    ((values.foldl contentStep state).1 : ℚ) / (values.foldl contentStep state).2 ∈
        AddSubgroup.zmultiples r ↔
      (state.1 : ℚ) / state.2 ∈ AddSubgroup.zmultiples r ∧
        ∀ q ∈ values, q ∈ AddSubgroup.zmultiples r := by
  induction values generalizing state with
  | nil => simp
  | cons q rest ih =>
    rw [List.foldl_cons, List.forall_mem_cons]
    by_cases zero : q = 0
    · have same : contentStep state q = state := if_pos zero
      rw [same, ih state positive lowest, zero]
      simp
    · have step : contentStep state q = (Nat.gcd state.1 q.num.natAbs, Nat.lcm state.2 q.den) :=
        if_neg zero
      have coprime : (Nat.gcd state.1 q.num.natAbs).Coprime (Nat.lcm state.2 q.den) := by
        apply Nat.Coprime.coprime_dvd_right (Nat.lcm_dvd_mul _ _)
        exact .mul_right (lowest.coprime_dvd_left (Nat.gcd_dvd_left _ _))
          (q.reduced.coprime_dvd_left (Nat.gcd_dvd_right _ _))
      have magnitude : ((q.num.natAbs : ℕ) : ℚ) / q.den = |q| := by
        conv_rhs => rw [← Rat.num_div_den q, abs_div, Nat.abs_cast, ← Int.cast_abs, Int.abs_eq_natAbs]
        rfl
      rw [step, ih _ (Nat.lcm_pos positive q.den_pos) coprime,
        gcd_div_lcm_mem_iff positive q.den_pos lowest q.reduced, magnitude, abs_mem_iff, and_assoc]

/-- **The content is a multiple of exactly those numbers that all values are multiples of.** -/
theorem content_mem_iff (values : List ℚ) (r : ℚ) :
    content values ∈ AddSubgroup.zmultiples r ↔ ∀ q ∈ values, q ∈ AddSubgroup.zmultiples r := by
  have fold := contentStep_mem_iff (0, 1) Nat.one_pos (Nat.coprime_one_right 0) values r
  have start : ((0 : ℕ) : ℚ) / (1 : ℕ) = 0 := by simp
  rw [start] at fold
  have quotient : content values =
      ((values.foldl contentStep (0, 1)).1 : ℚ) / (values.foldl contentStep (0, 1)).2 := by
    rw [content_eq]
    split
    · rename_i zero
      rw [zero, Nat.cast_zero, zero_div]
    · rfl
  rw [quotient, fold, and_iff_right (AddSubgroup.zero_mem _)]

/-- **Every value is a whole multiple of the content.** -/
theorem mem_zmultiples_content {values : List ℚ} {q : ℚ} (mem : q ∈ values) :
    q ∈ AddSubgroup.zmultiples (content values) :=
  (content_mem_iff values _).mp (AddSubgroup.mem_zmultiples _) q mem

theorem content_nonneg (values : List ℚ) : 0 ≤ content values := by
  rw [content_eq]
  split
  · exact le_rfl
  · exact div_nonneg (Nat.cast_nonneg _) (Nat.cast_nonneg _)

theorem mul_mem_zmultiples_iff {k : ℚ} (nonzero : k ≠ 0) (q r : ℚ) :
    k * q ∈ AddSubgroup.zmultiples (|k| * r) ↔ q ∈ AddSubgroup.zmultiples r := by
  have unsigned : |k| * q ∈ AddSubgroup.zmultiples (|k| * r) ↔ q ∈ AddSubgroup.zmultiples r := by
    simp only [AddSubgroup.mem_zmultiples_iff, zsmul_eq_mul, mul_left_comm _ |k|,
      mul_right_inj' (abs_ne_zero.mpr nonzero)]
  rw [← unsigned]
  rcases abs_choice k with same | opposite
  · rw [same]
  · rw [opposite, neg_mul k q, neg_mem_iff]

/-- Two numbers that are not negative and multiples of each other are equal. -/
theorem eq_of_mem_zmultiples {q r : ℚ} (nonneg : 0 ≤ q) (nonneg' : 0 ≤ r)
    (mem : q ∈ AddSubgroup.zmultiples r) (mem' : r ∈ AddSubgroup.zmultiples q) : q = r := by
  obtain ⟨n, rfl⟩ := AddSubgroup.mem_zmultiples_iff.mp mem
  obtain ⟨m, back⟩ := AddSubgroup.mem_zmultiples_iff.mp mem'
  rcases nonneg'.eq_or_lt with zero | positive
  · rw [← zero, zsmul_zero]
  · rw [zsmul_eq_mul, zsmul_eq_mul, ← mul_assoc] at back
    have units : m * n = 1 := by
      exact_mod_cast mul_right_cancel₀ positive.ne' (back.trans (one_mul r).symm)
    rcases Int.eq_one_or_neg_one_of_mul_eq_one' units with ⟨-, rfl⟩ | ⟨-, rfl⟩
    · rw [one_zsmul]
    · rw [neg_one_zsmul] at nonneg
      exact absurd positive (not_lt.mpr (neg_nonneg.mp nonneg))

/-- **The content of multiples** is the same multiple of the content, without the sign. -/
theorem content_map_mul {k : ℚ} (nonzero : k ≠ 0) (values : List ℚ) :
    content (values.map (k * ·)) = |k| * content values := by
  have same : ∀ r, content (values.map (k * ·)) ∈ AddSubgroup.zmultiples r ↔
      |k| * content values ∈ AddSubgroup.zmultiples r := by
    intro r
    obtain ⟨s, rfl⟩ : ∃ s, r = |k| * s := ⟨r / |k|, (mul_div_cancel₀ r (abs_ne_zero.mpr nonzero)).symm⟩
    have unsigned := mul_mem_zmultiples_iff (abs_ne_zero.mpr nonzero) (content values) s
    rw [abs_abs] at unsigned
    rw [content_mem_iff, unsigned, content_mem_iff, List.forall_mem_map]
    simp only [mul_mem_zmultiples_iff nonzero]
  apply eq_of_mem_zmultiples (content_nonneg _) (mul_nonneg (abs_nonneg k) (content_nonneg values))
  · exact (same _).mpr (AddSubgroup.mem_zmultiples _)
  · exact (same _).mp (AddSubgroup.mem_zmultiples _)

/-- The content is zero only if all values are. -/
theorem content_eq_zero_iff (values : List ℚ) : content values = 0 ↔ ∀ q ∈ values, q = 0 := by
  have fold := content_mem_iff values 0
  simpa only [AddSubgroup.zmultiples_zero_eq_bot, AddSubgroup.mem_bot] using fold

/-- **The content of multiples**, by zero too. -/
theorem content_multiples (k : ℚ) (values : List ℚ) :
    content (values.map (k * ·)) = |k| * content values := by
  by_cases zero : k = 0
  · rw [zero, abs_zero, zero_mul, content_eq_zero_iff, List.forall_mem_map]
    exact fun q _ => zero_mul q
  · exact content_map_mul zero values

/-! ## What is left without the content -/

/-- **Coprime integers**: the numbers of a list are integers, and their greatest common divisor
is 1. -/
def AreCoprime (values : List ℚ) : Prop :=
  ∃ ns : List ℤ, values = ns.map Int.cast ∧ (ns : Multiset ℤ).gcd = 1

/-- **Without the content** the values are integers. -/
theorem exists_integers {values : List ℚ} {c : ℚ} (nonzero : c ≠ 0)
    (multiples : ∀ q ∈ values, q ∈ AddSubgroup.zmultiples c) :
    ∃ ns : List ℤ, values.map (· / c) = ns.map Int.cast := by
  have whole : values.map (· / c) ∈ Set.range (List.map (Int.cast : ℤ → ℚ)) := by
    rw [Set.range_list_map, Set.mem_ofPred_eq, List.forall_mem_map]
    intro q mem
    obtain ⟨n, rfl⟩ := AddSubgroup.mem_zmultiples_iff.mp (multiples q mem)
    exact ⟨n, by rw [zsmul_eq_mul, mul_div_cancel_right₀ _ nonzero]⟩
  obtain ⟨ns, same⟩ := whole
  exact ⟨ns, same.symm⟩

/-- The integer that is left of a value. -/
theorem mem_integers {values : List ℚ} {c : ℚ} (nonzero : c ≠ 0) {ns : List ℤ}
    (integers : values.map (· / c) = ns.map Int.cast) {q : ℚ} (mem : q ∈ values) :
    ∃ n ∈ ns, (n : ℚ) * c = q := by
  have quotient : q / c ∈ ns.map (Int.cast : ℤ → ℚ) := by
    rw [← integers]
    exact List.mem_map_of_mem mem
  obtain ⟨n, inside, same⟩ := List.mem_map.mp quotient
  exact ⟨n, inside, by rw [same, div_mul_cancel₀ q nonzero]⟩

/-- **The integers that are left are coprime**: a common divisor of them could be put into the
content. -/
theorem areCoprime_div_content {values : List ℚ} (some : ∃ q ∈ values, q ≠ 0) :
    AreCoprime (values.map (· / content values)) := by
  have nonzero := (content_pos some).ne'
  obtain ⟨ns, integers⟩ := exists_integers nonzero fun q mem => mem_zmultiples_content mem
  refine ⟨ns, integers, ?_⟩
  have larger : content values ∈ AddSubgroup.zmultiples ((ns : Multiset ℤ).gcd * content values) := by
    rw [content_mem_iff]
    intro q mem
    obtain ⟨n, inside, rfl⟩ := mem_integers nonzero integers mem
    obtain ⟨m, factor⟩ := Multiset.gcd_dvd (Multiset.mem_coe.mpr inside)
    refine AddSubgroup.mem_zmultiples_iff.mpr ⟨m, ?_⟩
    rw [zsmul_eq_mul, ← mul_assoc, mul_comm (m : ℚ), ← Int.cast_mul, ← factor]
  obtain ⟨m, same⟩ := AddSubgroup.mem_zmultiples_iff.mp larger
  have unit : (ns : Multiset ℤ).gcd * m = 1 := by
    rw [zsmul_eq_mul, ← mul_assoc, mul_comm (m : ℚ)] at same
    exact_mod_cast mul_right_cancel₀ nonzero (same.trans (one_mul _).symm)
  rw [← Multiset.normalize_gcd]
  exact normalize_eq_one.mpr (IsUnit.of_mul_eq_one _ unit)

/-- **No other positive number** leaves coprime integers. -/
theorem eq_content_of_areCoprime {values : List ℚ} {c : ℚ} (positive : 0 < c)
    (coprime : AreCoprime (values.map (· / c))) : c = content values := by
  obtain ⟨ns, integers, gcd⟩ := coprime
  have multiple : content values ∈ AddSubgroup.zmultiples c := by
    rw [content_mem_iff]
    intro q mem
    obtain ⟨n, -, rfl⟩ := mem_integers positive.ne' integers mem
    exact AddSubgroup.mem_zmultiples_iff.mpr ⟨n, zsmul_eq_mul c n⟩
  obtain ⟨t, same⟩ := AddSubgroup.mem_zmultiples_iff.mp multiple
  -- the content is `t` times as large, so `t` divides all the integers
  have common : t ∣ (ns : Multiset ℤ).gcd := by
    rw [Multiset.dvd_gcd]
    intro n inside
    have quotient : (n : ℚ) ∈ values.map (· / c) := by
      rw [integers]
      exact List.mem_map_of_mem (Multiset.mem_coe.mp inside)
    obtain ⟨q, mem, value⟩ := List.mem_map.mp quotient
    obtain ⟨m, rfl⟩ := AddSubgroup.mem_zmultiples_iff.mp (mem_zmultiples_content mem)
    refine ⟨m, ?_⟩
    rw [← same, zsmul_eq_mul, zsmul_eq_mul, ← mul_assoc, mul_div_cancel_right₀ _ positive.ne'] at value
    rw [mul_comm]
    exact_mod_cast value.symm
  rw [gcd] at common
  apply eq_of_mem_zmultiples positive.le (content_nonneg values) _ multiple
  obtain ⟨m, unit⟩ := common
  refine AddSubgroup.mem_zmultiples_iff.mpr ⟨m, ?_⟩
  rw [← same, zsmul_eq_mul, zsmul_eq_mul, ← mul_assoc, ← Int.cast_mul, mul_comm m, ← unit, Int.cast_one,
    one_mul]

/-- **The content is the one positive number that leaves coprime integers**, and the content of
multiples is the same multiple of it. -/
theorem content_leaves_coprime (values : List ℚ) (some : ∃ q ∈ values, q ≠ 0) :
    0 < content values ∧ AreCoprime (values.map (· / content values)) ∧
      (∀ c : ℚ, 0 < c → AreCoprime (values.map (· / c)) → c = content values) ∧
      ∀ k : ℚ, content (values.map (k * ·)) = |k| * content values :=
  ⟨content_pos some, areCoprime_div_content some, fun _ => eq_content_of_areCoprime,
    fun k => content_multiples k values⟩

/-- The content of fractions of either sign and a zero. -/
theorem content_leaves_coprime_fractions :
    (∃ q ∈ ([3/2, -9/4, 0] : List ℚ), q ≠ 0) ∧ content [3/2, -9/4, 0] = 3/4 ∧
      AreCoprime ([3/2, -9/4, 0].map (· / content [3/2, -9/4, 0])) ∧
      content ([3/2, -9/4, 0].map (-2/3 * ·)) = |-2/3| * content [3/2, -9/4, 0] := by
  have some : ∃ q ∈ ([3/2, -9/4, 0] : List ℚ), q ≠ 0 := ⟨3/2, List.mem_cons_self, by norm_num⟩
  obtain ⟨-, coprime, -, multiples⟩ := content_leaves_coprime [3/2, -9/4, 0] some
  exact ⟨some, by decide +kernel, coprime, multiples (-2/3)⟩

end ExactAlgebra.Rational
