import ExactAlgebra.Proofs.Factoring.Multiple
import ExactAlgebra.Proofs.Rational.Divisors

/-!
# No rational root is missed

A polynomial with integer coefficients is divided by `x - a/b`, in lowest terms, with a quotient that
is `b` times a list of integers. Its first integer is the `b`-th part of the leading coefficient, and
`-a` times the last one is the constant. That is the rational root theorem, and more: it says how
large the coefficients of the quotients are while one root after the other is divided out.

## Main statements

* `exists_quotient` — division by a root in lowest terms;
* `mem_candidates`, `exists_root_of_candidates` — every root is among the candidates of a polynomial
  with a constant, and among those of any other one there is a root, if there is any;
* `peelLinear_stops`, `peelLinear_justified` — when linear factors are divided out no longer;
* `IsQuotient.peelLinear` — the size of what is left over.

## Main definitions

* `WithinLimit` — a list whose candidates are searched;
* `IsQuotient` — what is known of a quotient.
-/

namespace ExactAlgebra.Dense

/-! ## Division of integers -/

section Division

variable (r : ℚ)

/-- The remainder, cleared of denominators, is the first coefficient times a power of the numerator,
up to a multiple of the denominator. -/
theorem exists_remainder (cs : List ℤ) : ∃ z : ℤ, ∀ q : ℚ,
    (r.den : ℚ) ^ cs.length * (divideFrom r q (cs.map Int.cast)).2 = q * r.num ^ cs.length + r.den * z := by
  have lowest : (r.den : ℚ) * r = r.num := Rat.den_mul_eq_num r
  induction cs with
  | nil => exact ⟨0, fun q => by simp [divideFrom]⟩
  | cons c rest ih =>
    obtain ⟨z, value⟩ := ih
    refine ⟨c * r.num ^ rest.length + r.den * z, fun q => ?_⟩
    rw [List.map_cons, divideFrom_cons, List.length_cons, pow_succ', mul_assoc, value]
    push_cast
    linear_combination (q * r.num ^ rest.length) * lowest

variable {r}

/-- **The denominator of a root divides the first coefficient.** -/
theorem den_dvd {q : ℤ} {cs : List ℤ} (root : (divideFrom r q (cs.map Int.cast)).2 = 0) :
    (r.den : ℤ) ∣ q := by
  obtain ⟨z, value⟩ := exists_remainder r cs
  have zero := value q
  rw [root, mul_zero] at zero
  have product : q * r.num ^ cs.length = r.den * -z := by
    have cast : ((q * r.num ^ cs.length : ℤ) : ℚ) = ((r.den * -z : ℤ) : ℚ) := by
      push_cast
      linear_combination -zero
    exact_mod_cast cast
  have coprime : IsCoprime (r.den : ℤ) (r.num ^ cs.length) := by
    apply IsCoprime.pow_right
    rw [Int.isCoprime_iff_gcd_eq_one, Int.gcd_comm]
    exact r.reduced
  exact coprime.dvd_of_dvd_mul_right ⟨-z, product⟩

/-- **Division by a root.** The quotient is the denominator times a list of integers; the first
coefficient is the denominator times the first of them, and the last one is minus the numerator times
the last of them. -/
theorem exists_quotient {q : ℤ} {cs : List ℤ} (root : (divideFrom r q (cs.map Int.cast)).2 = 0) :
    ∃ es : List ℤ, (divideFrom r q (cs.map Int.cast)).1 = es.map (fun e : ℤ => (r.den : ℚ) * e) ∧
      (∀ e ∈ es.head?, (r.den : ℤ) * e = q) ∧ es.getLast?.map (-r.num * ·) = cs.getLast? := by
  have lowest : (r.den : ℚ) * r = r.num := Rat.den_mul_eq_num r
  induction cs generalizing q with
  | nil => exact ⟨[], rfl, by simp, rfl⟩
  | cons c rest ih =>
    obtain ⟨e, rfl⟩ := den_dvd root
    have next : (c : ℚ) + ((r.den * e : ℤ) : ℚ) * r = ((c + e * r.num : ℤ) : ℚ) := by
      push_cast
      linear_combination (e : ℚ) * lowest
    rw [List.map_cons, divideFrom_cons, next] at root ⊢
    obtain ⟨es, quotient, first, last⟩ := ih root
    refine ⟨e :: es, ?_, by simp, ?_⟩
    · rw [quotient, List.map_cons, Int.cast_mul, Int.cast_natCast]
    · rw [List.getLast?_cons, List.getLast?_cons, ← last]
      cases final : es.getLast? with
      | none =>
        -- nothing is left, so what is carried on is the remainder
        have none : rest = [] := by
          rw [final] at last
          exact List.getLast?_eq_none_iff.mp last.symm
        subst none
        have remainder : ((c + e * r.num : ℤ) : ℚ) = 0 := root
        have zero := Int.cast_eq_zero.mp remainder
        show some (-r.num * e) = some c
        rw [eq_neg_of_add_eq_zero_left zero, neg_mul, mul_comm]
      | some f => rfl

/-- The quotient of a list of integers by a root begins with the denominator's share of the first
coefficient, and ends with the numerator's share of the last one. -/
theorem exists_divideLinear {q : ℤ} {cs : List ℤ} (root : hasRoot (q :: cs |>.map Int.cast) r = true) :
    ∃ es : List ℤ, (divideLinear (q :: cs |>.map Int.cast) r).1 = es.map (fun e : ℤ => (r.den : ℚ) * e) ∧
      (∀ e ∈ es.head?, (r.den : ℤ) * e = q) ∧ es.getLast?.map (-r.num * ·) = cs.getLast? := by
  apply exists_quotient
  have remainder := divideLinear_remainder (q :: cs |>.map Int.cast) r
  rw [hasRoot, decide_eq_true_eq] at root
  rwa [root] at remainder

/-- **The numerator of a rational root divides the constant, the denominator divides the leading
coefficient.** -/
theorem dvd_of_hasRoot {cs : List ℤ} (root : hasRoot (cs.map Int.cast) r = true) :
    r.num ∣ cs.getLast?.getD 0 ∧ (r.den : ℤ) ∣ cs.head?.getD 0 := by
  match cs with
  | [] => exact ⟨dvd_zero _, dvd_zero _⟩
  | q :: cs =>
    obtain ⟨es, -, -, last⟩ := exists_divideLinear root
    have remainder := divideLinear_remainder (q :: cs |>.map Int.cast) r
    rw [hasRoot, decide_eq_true_eq] at root
    rw [root] at remainder
    refine ⟨?_, den_dvd remainder⟩
    rw [List.getLast?_cons, Option.getD_some, ← last]
    cases final : es.getLast? with
    | none =>
      rw [final] at last
      obtain rfl := List.getLast?_eq_none_iff.mp last.symm
      have zero : (q : ℚ) = 0 := remainder
      rw [Int.cast_eq_zero.mp zero]
      exact dvd_zero _
    | some l => exact ⟨-l, by simp⟩

end Division

/-! ## Candidates -/

/-- The common denominator is a multiple of every denominator. -/
theorem commonDenominator_spec (cs : List ℚ) :
    0 < commonDenominator cs ∧ ∀ q ∈ cs, q.den ∣ commonDenominator cs := by
  have fold : ∀ (cs : List ℚ) (d : Nat), 0 < d →
      0 < cs.foldl (fun l q => Nat.lcm l q.den) d ∧ d ∣ cs.foldl (fun l q => Nat.lcm l q.den) d ∧
        ∀ q ∈ cs, q.den ∣ cs.foldl (fun l q => Nat.lcm l q.den) d := by
    intro cs
    induction cs with
    | nil => exact fun d positive => ⟨positive, dvd_rfl, by simp⟩
    | cons c rest ih =>
      intro d positive
      obtain ⟨above, multiple, all⟩ := ih (Nat.lcm d c.den) (Nat.lcm_pos positive c.den_pos)
      refine ⟨above, (Nat.dvd_lcm_left _ _).trans multiple, List.forall_mem_cons.mpr ⟨?_, all⟩⟩
      exact (Nat.dvd_lcm_right _ _).trans multiple
  obtain ⟨positive, -, all⟩ := fold cs 1 Nat.one_pos
  exact ⟨positive, all⟩

/-- **The integer coefficients** are the coefficients times their common denominator. -/
theorem integerCoefficients_cast (cs : List ℚ) :
    (integerCoefficients cs).map Int.cast = cs.map ((commonDenominator cs : ℚ) * ·) := by
  unfold integerCoefficients
  rw [List.map_map]
  apply List.map_congr_left
  intro q mem
  obtain ⟨m, multiple⟩ := (commonDenominator_spec cs).2 q mem
  have whole : q * (commonDenominator cs : ℚ) = ((q.num * m : ℤ) : ℚ) := by
    rw [multiple]
    push_cast
    rw [← mul_assoc, Rat.mul_den_eq_num]
  show (((q * (commonDenominator cs : ℚ)).num : ℤ) : ℚ) = _
  rw [whole, Rat.num_intCast, ← whole, mul_comm]

/-- Integers have no denominators to be cleared. -/
theorem integerCoefficients_intCast (ds : List ℤ) : integerCoefficients (ds.map Int.cast) = ds := by
  have one : commonDenominator (ds.map Int.cast) = 1 := by
    unfold commonDenominator
    induction ds with
    | nil => rfl
    | cons d ds ih => simpa using ih
  unfold integerCoefficients
  rw [one, List.map_map]
  simp [Function.comp_def]

theorem mem_bothSigns {q r : ℚ} : r ∈ bothSigns q ↔ r = q ∨ r = -q := by
  simp [bothSigns]

/-- A number is the fraction of its numerator and denominator, or the opposite of it. -/
theorem mem_bothSigns_self (r : ℚ) : r ∈ bothSigns ((r.num.natAbs : ℚ) / r.den) := by
  rw [mem_bothSigns]
  rcases Int.natAbs_eq r.num with same | opposite
  · left
    conv_lhs => rw [← Rat.num_div_den r, same]
    rw [Int.cast_natCast]
  · right
    conv_lhs => rw [← Rat.num_div_den r, opposite]
    rw [Int.cast_neg, Int.cast_natCast, neg_div]

/-- A fraction in lowest terms is among the candidates if its numerator and its denominator are among
the divisors. -/
theorem mem_fractions {r : ℚ} {numerators denominators : List Nat}
    (numerator : r.num.natAbs ∈ numerators) (denominator : r.den ∈ denominators) :
    r ∈ fractions numerators denominators := by
  have value := mem_bothSigns_self r
  unfold fractions
  rw [List.mem_append]
  by_cases whole : r.den = 1
  · left
    refine List.mem_flatMap.mpr ⟨r.num.natAbs, numerator, ?_⟩
    rwa [whole, Nat.cast_one, div_one] at value
  · right
    refine List.mem_flatMap.mpr ⟨r.num.natAbs, numerator, List.mem_flatMap.mpr ⟨r.den, ?_, value⟩⟩
    have lowest : Nat.gcd r.num.natAbs r.den = 1 := r.reduced
    simp [denominator, whole, lowest]

/-- **A coefficient list whose candidates are searched**: without denominators, neither the constant
nor the leading coefficient is too large to find its divisors. -/
def WithinLimit (cs : List ℚ) : Prop :=
  ((integerCoefficients cs).getLast?.getD 0).natAbs ≤ Rational.factorLimit ∧
    ((integerCoefficients cs).head?.getD 0).natAbs ≤ Rational.factorLimit

/-- At zero a polynomial has the constant as its value. -/
theorem hasRoot_zero {cs : List ℚ} (zero : cs.getLast?.getD 0 = 0) : hasRoot cs 0 = true := by
  rw [hasRoot, decide_eq_true_eq, Poly.horner]
  rcases List.eq_nil_or_concat cs with rfl | ⟨front, c, rfl⟩
  · rfl
  · rw [List.concat_eq_append] at zero ⊢
    rw [List.foldl_append, List.foldl_cons, List.foldl_nil, mul_zero, zero_add]
    simpa using zero

theorem commonDenominator_ne_zero (cs : List ℚ) : (commonDenominator cs : ℚ) ≠ 0 :=
  Nat.cast_ne_zero.mpr (commonDenominator_spec cs).1.ne'

/-- Without denominators the roots are the same. -/
theorem hasRoot_integerCoefficients (cs : List ℚ) (r : ℚ) :
    hasRoot ((integerCoefficients cs).map Int.cast) r = hasRoot cs r := by
  rw [integerCoefficients_cast, hasRoot_map_mul (commonDenominator_ne_zero cs)]

theorem head_integerCoefficients_ne_zero {cs : List ℚ} (leading : HasLeading cs) :
    (integerCoefficients cs).head?.getD 0 ≠ 0 := by
  have multiple := leading.map_mul (commonDenominator_ne_zero cs)
  rw [← integerCoefficients_cast] at multiple
  obtain ⟨a, rest, nonzero, same⟩ := multiple
  obtain ⟨i, others, front, rfl, -⟩ := List.map_eq_cons_iff.mp same
  rw [front]
  exact Int.cast_ne_zero.mp nonzero

/-- A polynomial without a constant has the root zero. -/
theorem hasRoot_zero_of_constant {cs : List ℚ}
    (zero : ((integerCoefficients cs).getLast?.getD 0).natAbs = 0) : hasRoot cs 0 = true := by
  rw [← hasRoot_integerCoefficients]
  apply hasRoot_zero
  rw [List.getLast?_map]
  cases last : (integerCoefficients cs).getLast? with
  | none => rfl
  | some l =>
    rw [last] at zero
    obtain rfl : l = 0 := Int.natAbs_eq_zero.mp zero
    rfl

/-- **The candidates of a polynomial with a constant**, if they are searched. -/
theorem candidates_of_constant {cs : List ℚ} (long : 2 ≤ cs.length) (within : WithinLimit cs)
    (constant : ((integerCoefficients cs).getLast?.getD 0).natAbs ≠ 0) :
    candidates cs = fractions
      (Rational.divisorsFrom ((integerCoefficients cs).getLast?.getD 0).natAbs 1 [] [])
      (Rational.divisorsFrom ((integerCoefficients cs).head?.getD 0).natAbs 1 [] []) := by
  have small : ¬ (Rational.factorLimit < ((integerCoefficients cs).getLast?.getD 0).natAbs ∨
      Rational.factorLimit < ((integerCoefficients cs).head?.getD 0).natAbs) :=
    not_or.mpr ⟨Nat.not_lt.mpr within.1, Nat.not_lt.mpr within.2⟩
  unfold candidates
  rw [if_neg (Nat.not_lt.mpr long)]
  simp only [if_neg constant, if_neg small]

/-- **Every rational root is among the candidates** of a polynomial with a constant. -/
theorem mem_candidates {cs : List ℚ} (leading : HasLeading cs) (long : 2 ≤ cs.length)
    (within : WithinLimit cs) (constant : ((integerCoefficients cs).getLast?.getD 0).natAbs ≠ 0)
    {r : ℚ} (root : hasRoot cs r = true) : r ∈ candidates cs := by
  obtain ⟨numerator, denominator⟩ := dvd_of_hasRoot ((hasRoot_integerCoefficients cs r).trans root)
  have first := head_integerCoefficients_ne_zero leading
  rw [candidates_of_constant long within constant]
  apply mem_fractions
  · exact Rational.mem_divisorsFrom (Nat.pos_of_ne_zero constant) (Int.natAbs_dvd_natAbs.mpr numerator)
  · exact Rational.mem_divisorsFrom (Int.natAbs_pos.mpr first) (Int.natCast_dvd.mp denominator)

/-- **Among the candidates there is a root**, if there is any rational root. -/
theorem exists_root_of_candidates {cs : List ℚ} (leading : HasLeading cs) (long : 2 ≤ cs.length)
    (within : WithinLimit cs) {r : ℚ} (root : hasRoot cs r = true) :
    ∃ s ∈ candidates cs, hasRoot cs s = true := by
  by_cases constant : ((integerCoefficients cs).getLast?.getD 0).natAbs = 0
  · refine ⟨0, ?_, hasRoot_zero_of_constant constant⟩
    rw [candidates, if_neg (Nat.not_lt.mpr long)]
    simp [constant]
  · exact ⟨r, mem_candidates leading long within constant root, root⟩

/-! ## Dividing out linear factors -/

/-- Every linear factor that is divided out lowers the degree by one. -/
theorem length_peelLinear (n : Nat) (cs : List ℚ) :
    (peelLinear n cs).front.length + (peelLinear n cs).rest.length = cs.length := by
  induction n generalizing cs with
  | zero => simp [peelLinear]
  | succ n ih =>
    rw [peelLinear]
    split
    · simp
    · rename_i long
      split
      · simp
      · rename_i r search
        have quotient := ih (divideLinear cs r).1
        rw [length_divideLinear] at quotient
        simp only [List.length_cons]
        omega

/-- **Linear factors are divided out** until the degree is at most two, or there is no root among the
candidates, or there were as many as are allowed. -/
theorem peelLinear_stops (n : Nat) (cs : List ℚ) :
    (peelLinear n cs).rest.length ≤ 3 ∨
      (candidates (peelLinear n cs).rest).find? (hasRoot (peelLinear n cs).rest) = none ∨
        (peelLinear n cs).front.length = n := by
  induction n generalizing cs with
  | zero => exact .inr (.inr rfl)
  | succ n ih =>
    rw [peelLinear]
    split
    · rename_i done
      exact .inl done
    · split
      · rename_i missing
        exact .inr (.inl missing)
      · rename_i r search
        exact (ih (divideLinear cs r).1).imp_right (Or.imp_right (congrArg Nat.succ))

/-- **Three reasons to leave something over** whose degree is above two: it has no rational root, its
candidates are not searched, or the limit is reached. -/
theorem peelLinear_justified (n : Nat) {cs : List ℚ} (leading : HasLeading cs)
    (long : 3 < (peelLinear n cs).rest.length) :
    (∀ r, hasRoot (peelLinear n cs).rest r = false) ∨ ¬ WithinLimit (peelLinear n cs).rest ∨
      (peelLinear n cs).front.length = n := by
  rcases peelLinear_stops n cs with short | missing | limit
  · exact absurd short (Nat.not_le.mpr long)
  · by_cases within : WithinLimit (peelLinear n cs).rest
    · refine .inl fun r => ?_
      by_contra root
      -- a root that the search misses would not be the only one
      obtain ⟨s, mem, isRoot⟩ := exists_root_of_candidates (splits_peelLinear n leading).leading_rest
        (by omega) within (by simpa using root)
      exact List.find?_eq_none.mp missing s mem isRoot
    · exact .inr (.inl within)
  · exact .inr (.inr limit)

/-- **What is left over has no rational root**, if its candidates have been searched. -/
theorem not_hasRoot_peelLinear {n : Nat} {cs : List ℚ} (leading : HasLeading cs)
    (short : cs.length ≤ n + 3) (long : 3 < (peelLinear n cs).rest.length)
    (within : WithinLimit (peelLinear n cs).rest) (r : ℚ) :
    hasRoot (peelLinear n cs).rest r = false := by
  have length := length_peelLinear n cs
  rcases peelLinear_justified n leading long with none | beyond | limit
  · exact none r
  · exact absurd within beyond
  · omega

/-! ## The size of what is left over -/

/-- **A quotient of a list of integers** by linear factors: a natural number times a list of integers.
The number times the first integer is the given leading coefficient, and the last integer divides the
given constant. -/
def IsQuotient (leading constant : ℤ) (cs : List ℚ) : Prop :=
  ∃ (b : Nat) (es : List ℤ), cs = es.map (fun e : ℤ => (b : ℚ) * e) ∧
    (∃ first ∈ es.head?, (b : ℤ) * first = leading) ∧ ∃ last ∈ es.getLast?, last ∣ constant

namespace IsQuotient

variable {leading constant : ℤ} {cs : List ℚ}

/-- **A root divides out.** -/
theorem divideLinear (quotient : IsQuotient leading constant cs) (nonzero : leading ≠ 0)
    (long : 2 ≤ cs.length) {r : ℚ} (root : hasRoot cs r = true) :
    IsQuotient leading constant (Dense.divideLinear cs r).1 := by
  obtain ⟨b, es, rfl, ⟨q, first, factor⟩, last, final, divides⟩ := quotient
  have multiple : es.map (fun e : ℤ => (b : ℚ) * e) = (es.map Int.cast).map ((b : ℚ) * ·) := by
    rw [List.map_map]
    rfl
  have denominator : (b : ℚ) ≠ 0 := by exact_mod_cast left_ne_zero_of_mul (factor.trans_ne nonzero)
  match es, long with
  | q' :: d :: ds, _ =>
    obtain rfl : q' = q := Option.some.inj first
    rw [multiple, hasRoot_map_mul denominator] at root
    obtain ⟨es', value, first', last'⟩ := exists_divideLinear root
    rw [List.getLast?_cons_cons] at final
    rw [Option.mem_def.mp final] at last'
    obtain ⟨l, final', product⟩ := Option.map_eq_some_iff.mp last'
    have divided : (Dense.divideLinear ((q' :: d :: ds).map fun e : ℤ => (b : ℚ) * e) r).1 =
        es'.map fun e : ℤ => ((b * r.den : ℕ) : ℚ) * e := by
      rw [multiple, divideLinear_map_mul, value, List.map_map]
      apply List.map_congr_left
      intro e _
      show (b : ℚ) * (r.den * e) = ((b * r.den : ℕ) : ℚ) * e
      push_cast
      ring
    refine ⟨b * r.den, es', divided, ?_, l, final', (Dvd.intro_left (-r.num) product).trans divides⟩
    cases head : es'.head? with
    | none =>
      rw [List.head?_eq_none_iff.mp head] at final'
      cases final'
    | some e =>
      refine ⟨e, rfl, ?_⟩
      rw [Nat.cast_mul, mul_assoc, first' e head, factor]

theorem peelLinear (n : Nat) (quotient : IsQuotient leading constant cs) (nonzero : leading ≠ 0) :
    IsQuotient leading constant (Dense.peelLinear n cs).rest := by
  induction n generalizing cs with
  | zero => exact quotient
  | succ n ih =>
    rw [Dense.peelLinear]
    split
    · exact quotient
    · rename_i long
      split
      · exact quotient
      · rename_i r search
        have root : hasRoot cs r = true := by simpa using List.find?_some search
        exact ih (quotient.divideLinear nonzero (by omega) root)

/-- The lowest coefficient of a quotient is not zero, if the constant is not. -/
theorem exists_getLast (quotient : IsQuotient leading constant cs) (nonzero : leading ≠ 0)
    (nonzero' : constant ≠ 0) : ∃ c ∈ cs.getLast?, c ≠ 0 := by
  obtain ⟨b, es, rfl, ⟨q, -, factor⟩, last, final, divides⟩ := quotient
  have denominator : (b : ℚ) ≠ 0 := by exact_mod_cast left_ne_zero_of_mul (factor.trans_ne nonzero)
  have kept : last ≠ 0 := by
    rintro rfl
    exact nonzero' (zero_dvd_iff.mp divides)
  refine ⟨b * last, ?_, mul_ne_zero denominator (Int.cast_ne_zero.mpr kept)⟩
  rw [List.getLast?_map, Option.mem_def.mp final]
  rfl

/-- **A quotient stays within the limit** if the product of the leading coefficient and the constant
does. -/
theorem withinLimit (quotient : IsQuotient leading constant cs) (nonzero : leading ≠ 0)
    (nonzero' : constant ≠ 0) (small : leading.natAbs * constant.natAbs ≤ Rational.factorLimit) :
    WithinLimit cs := by
  obtain ⟨b, es, rfl, ⟨q, first, factor⟩, last, final, divides⟩ := quotient
  have integers : es.map (fun e : ℤ => (b : ℚ) * e) = (es.map ((b : ℤ) * ·)).map Int.cast := by
    rw [List.map_map]
    apply List.map_congr_left
    intro e _
    show (b : ℚ) * e = ((b * e : ℤ) : ℚ)
    push_cast
    rfl
  have share : b ≤ leading.natAbs := by
    apply Nat.le_of_dvd (Int.natAbs_pos.mpr nonzero)
    rw [← factor, Int.natAbs_mul]
    exact Nat.dvd_mul_right _ _
  have share' : last.natAbs ≤ constant.natAbs :=
    Nat.le_of_dvd (Int.natAbs_pos.mpr nonzero') (Int.natAbs_dvd_natAbs.mpr divides)
  unfold WithinLimit
  rw [integers, integerCoefficients_intCast, List.getLast?_map, List.head?_map,
    Option.mem_def.mp first, Option.mem_def.mp final]
  constructor
  · show ((b : ℤ) * last).natAbs ≤ Rational.factorLimit
    rw [Int.natAbs_mul, Int.natAbs_natCast]
    exact (Nat.mul_le_mul share share').trans small
  · show ((b : ℤ) * q).natAbs ≤ Rational.factorLimit
    rw [factor]
    exact (Nat.le_mul_of_pos_right _ (Int.natAbs_pos.mpr nonzero')).trans small

end IsQuotient

/-! ## Without content -/

/-- The lowest coefficient that is left is not zero. -/
theorem exists_getLast_primitive {cs : List ℚ} (leading : HasLeading cs) :
    ∃ c ∈ (primitive cs).getLast?, c ≠ 0 := by
  obtain ⟨a, rest, -, some⟩ := hasLeading_primitive leading
  cases final : (primitive cs).getLast? with
  | none =>
    rw [List.getLast?_eq_none_iff.mp final] at some
    cases some
  | some c =>
    refine ⟨c, rfl, ?_⟩
    rintro rfl
    rw [primitive_eq, take_commonPower, List.getLast?_map, List.getLast?_reverse] at final
    obtain ⟨d, first, product⟩ := Option.map_eq_some_iff.mp final
    have zero : d = 0 := (mul_eq_zero.mp product).resolve_left (inv_ne_zero (content_ne_zero leading))
    -- but zeros are dropped
    have kept := List.head?_dropWhile_not (fun q : ℚ => decide (q = 0)) cs.reverse
    rw [first] at kept
    simp [zero] at kept

/-- **Without content and common power** the coefficients are integers. -/
theorem primitive_eq_intCast {cs : List ℚ} (leading : HasLeading cs) :
    primitive cs = ((primitive cs).map Rat.num).map Int.cast := by
  rw [List.map_map]
  conv_lhs => rw [← List.map_id (primitive cs)]
  apply List.map_congr_left
  intro q mem
  rw [primitive_eq] at mem
  obtain ⟨c, inside, rfl⟩ := List.mem_map.mp mem
  obtain ⟨n, multiple⟩ := AddSubgroup.mem_zmultiples_iff.mp
    (Rational.mem_zmultiples_content (List.mem_of_mem_take inside))
  have whole : (Rational.content cs)⁻¹ * c = n := by
    rw [← multiple, zsmul_eq_mul, mul_left_comm, inv_mul_cancel₀ (content_ne_zero leading), mul_one]
  show (Rational.content cs)⁻¹ * c = ((((Rational.content cs)⁻¹ * c).num : ℤ) : ℚ)
  rw [whole, Rat.num_intCast]

/-- **What is left without content is a quotient of integers**, by no factor at all. -/
theorem isQuotient_primitive {cs : List ℚ} (leading : HasLeading cs) :
    IsQuotient ((primitive cs).head?.getD 0).num ((primitive cs).getLast?.getD 0).num (primitive cs) ∧
      ((primitive cs).head?.getD 0).num ≠ 0 ∧ ((primitive cs).getLast?.getD 0).num ≠ 0 := by
  obtain ⟨a, rest, nonzero, front⟩ := hasLeading_primitive leading
  obtain ⟨c, final, nonzero'⟩ := exists_getLast_primitive leading
  have first : (primitive cs).head? = some a := by rw [front, List.head?_cons]
  rw [first, Option.mem_def.mp final]
  refine ⟨⟨1, (primitive cs).map Rat.num, ?_, ⟨a.num, ?_, one_mul _⟩, c.num, ?_, dvd_rfl⟩,
    Rat.num_ne_zero.mpr nonzero, Rat.num_ne_zero.mpr nonzero'⟩
  · conv_lhs => rw [primitive_eq_intCast leading]
    simp
  · rw [List.head?_map, first]
    rfl
  · rw [List.getLast?_map, Option.mem_def.mp final]
    rfl

end ExactAlgebra.Dense
