import ExactAlgebra.Proofs.Radical.Rational
import ExactAlgebra.Radical.Power

/-!
# Radicals in simplest form

A radical that has been made is in simplest form already: made again from its own coefficient and
radicand, it stays as it is. The search for squares stands in the way of larger radicands only, and
those have been refused in the first place.

## Main statements

* `splitSquare_of_squareFree` — a square-free number splits into one and itself;
* `isMade_iff` — a radical can be made exactly if its radicand can be searched for squares;
* `ofRat_mul_root`, `IsMade.mul_ofRat_one` — products with rationals;
* `rationalPower_half` — the square root of a square-free number.

## Main definitions

* `IsMade` — the radicals that there are: those that the constructor yields.
-/

namespace ExactAlgebra.Radical

open ExactAlgebra.Rational (factorLimit checkFactorable)

/-- **A radical that can be made** from some coefficient and some radicand. -/
def IsMade (a : Radical) : Prop :=
  ∃ c r, make c r = .ok a

/-! ## Square-free parts -/

theorem peelSquares_le (n : Nat) (pos : 0 < n) : (peelSquares n).2 ≤ n := by
  have parts := peelSquares_eq n
  have k : 0 < (peelSquares n).1 := by
    rcases Nat.eq_zero_or_pos (peelSquares n).1 with zero | pos'
    · rw [zero] at parts
      omega
    · exact pos'
  calc (peelSquares n).2 ≤ (peelSquares n).1 * (peelSquares n).1 * (peelSquares n).2 :=
        Nat.le_mul_of_pos_left _ (Nat.mul_pos k k)
    _ = n := parts

/-- A square-free part is within the limit. -/
theorem splitSquare_le {n : Nat} {parts : Nat × Nat} (pos : 0 < n)
    (split : splitSquare n = .ok parts) : parts.2 ≤ factorLimit := by
  unfold splitSquare checkFactorable at split
  split at split
  · cases split
    show 1 ≤ factorLimit
    decide
  · by_cases large : factorLimit < n
    · rw [if_pos large] at split
      cases split
    · rw [if_neg large] at split
      cases split
      exact (peelSquares_le n pos).trans (Nat.not_lt.mp large)

/-- **A square-free number has no square part.** -/
theorem splitSquare_of_squareFree {m : Nat} (free : SquareFree m) (le : m ≤ factorLimit) :
    splitSquare m = .ok (1, m) := by
  rw [splitSquare]
  split
  · rename_i square
    have root := free m.sqrt (dvd_of_eq square.2)
    rw [root] at square
    rw [root, ← square.2]
  · rw [checkFactorable, if_neg (Nat.not_lt.mpr le)]
    -- the square that is divided out divides the number, so it is one
    have parts := peelSquares_eq m
    have one : (peelSquares m).1 = 1 := free _ (Dvd.intro _ parts)
    have rest : (peelSquares m).2 = m := by
      rw [one] at parts
      omega
    exact congrArg Except.ok (Prod.ext one rest)

/-! ## Making a radical again -/

theorem ofParts_self (a : Radical) : ofParts a.coefficient a.radicand a.squareFree = a := by
  obtain ⟨c, m, free, zero⟩ := a
  rw [ofParts]
  split
  · rename_i none
    obtain rfl := zero none
    obtain rfl : c = 0 := none
    rfl
  · rfl

@[simp]
theorem coefficient_ofParts (c : ℚ) (m : Nat) (free : SquareFree m) :
    (ofParts c m free).coefficient = c := by
  rw [ofParts]
  split
  · rename_i zero
    exact zero.symm
  · rfl

theorem radicand_ofParts {c : ℚ} (nonzero : c ≠ 0) (m : Nat) (free : SquareFree m) :
    (ofParts c m free).radicand = m := by
  rw [ofParts, dif_neg nonzero]

theorem neg_ofParts (c : ℚ) (m : Nat) (free : SquareFree m) :
    (ofParts c m free).neg = ofParts (-c) m free := by
  by_cases zero : c = 0
  · subst zero
    simp [ofParts]
  · simp [neg, ofParts, zero]

@[simp]
theorem coefficient_neg (a : Radical) : a.neg.coefficient = -a.coefficient :=
  coefficient_ofParts _ _ _

theorem neg_neg_self (a : Radical) : a.neg.neg = a := by
  have once : a.neg = ofParts (-a.coefficient) a.radicand a.squareFree := rfl
  rw [once, neg_ofParts, neg_neg, ofParts_self]

/-- A square-free radicand stays as it is. -/
theorem make_natCast (c : ℚ) {m : Nat} (free : SquareFree m) (le : m ≤ factorLimit) :
    make c m = .ok (ofParts c m free) := by
  have split : splitSquare ((m : ℚ).num.natAbs * (m : ℚ).den) = .ok (1, m) := by
    rw [Rat.num_natCast, Int.natAbs_natCast, Rat.den_natCast, Nat.mul_one]
    exact splitSquare_of_squareFree free le
  have nonneg : ¬ (m : ℚ) < 0 := not_lt.mpr (Nat.cast_nonneg m)
  have pos : (m : ℚ) ≠ 0 := Nat.cast_ne_zero.mpr free.pos.ne'
  rw [make, if_neg nonneg]
  by_cases zero : c = 0
  · rw [dif_pos (.inl zero), ofParts, dif_pos zero]
  · rw [dif_neg (not_or.mpr ⟨zero, pos⟩)]
    split
    · rename_i found
      rw [split] at found
      cases found
    · rename_i k m' found
      rw [split] at found
      cases found
      have whole : c * ((1 : ℕ) / ((m : ℚ).den : ℚ)) = c := by simp
      simp only [whole]

/-- **The radicals that can be made** are those with a radicand up to the limit. -/
theorem isMade_iff (a : Radical) : a.IsMade ↔ a.radicand ≤ factorLimit := by
  constructor
  · rintro ⟨c, r, made⟩
    rw [make] at made
    split at made
    · cases made
    · split at made
      · cases made
        decide
      · rename_i some
        split at made
        · cases made
        · rename_i k m found
          obtain rfl := Except.ok.inj made
          have pos : 0 < r.num.natAbs * r.den :=
            Nat.mul_pos (Int.natAbs_pos.mpr fun zero => some (.inr (Rat.num_eq_zero.mp zero)))
              r.den_pos
          rw [ofParts]
          split
          · decide
          · exact splitSquare_le pos found
  · intro le
    refine ⟨a.coefficient, a.radicand, ?_⟩
    rw [make_natCast _ a.squareFree le, ofParts_self]

namespace IsMade

variable {a : Radical}

/-- **A radical is made again** from its radicand and any coefficient. -/
theorem make_coefficient (made : a.IsMade) (c : ℚ) :
    make c a.radicand = .ok (ofParts c a.radicand a.squareFree) :=
  make_natCast c a.squareFree (a.isMade_iff.mp made)

theorem mul_ofRat_one (made : a.IsMade) : a.mul (ofRat 1) = .ok a := by
  have same : make a.coefficient a.radicand = .ok a := by
    rw [made.make_coefficient, ofParts_self]
  rw [mul]
  simpa only [ofRat, Nat.cast_one, mul_one] using same

theorem neg (made : a.IsMade) : a.neg.IsMade :=
  ⟨-a.coefficient, a.radicand, made.make_coefficient _⟩

end IsMade

/-- A coefficient in front of a root. -/
theorem ofRat_mul_root (q : ℚ) {m : Nat} (free : SquareFree m) (le : m ≤ factorLimit) :
    (ofRat q).mul (ofParts 1 m free) = .ok (ofParts q m free) := by
  rw [mul, coefficient_ofParts, radicand_ofParts one_ne_zero]
  simp only [ofRat, Nat.cast_one, one_mul, mul_one]
  exact make_natCast q free le

/-- **The square root of a square-free number.** -/
theorem rationalPower_half {m : Nat} (free : SquareFree m) (le : m ≤ factorLimit) :
    rationalPower m (1 / 2) = .ok (ofParts 1 m free) := by
  have pos : (m : ℚ) ≠ 0 := Nat.cast_ne_zero.mpr free.pos.ne'
  have half : (1 / 2 : ℚ).num = 1 ∧ (1 / 2 : ℚ).den = 2 := by decide +kernel
  have power : Rational.intPower m 1 = (m : ℚ) := by
    rw [Rational.intPower, if_pos (by decide), Rational.natPower_eq]
    exact pow_one _
  rw [rationalPower, if_neg pos, half.1, half.2]
  simp only [power, sqrt, if_neg (show (2 : ℕ) ≠ 1 by decide), if_true]
  exact make_natCast 1 free le

end ExactAlgebra.Radical
