import ExactAlgebra.Rational.Basic
import ExactAlgebra.Rational.Divisors

/-!
# Square-free numbers

A square root is simplified by writing its radicand as `k² · m` with `m` square-free. A perfect
square of any size splits at once; any other number is divided by `4`, `9`, `25`, … as often as they
go.

## Main statements

* `splitSquare_eq` — the two parts multiply back: `k² · m = n`;
* `splitSquare_squareFree` — the second part is square-free.

## Main definitions

* `SquareFree` — no square above one divides the number;
* `splitSquare` — the parts `k` and `m`, or the refusal of a number above the limit.
-/

namespace ExactAlgebra.Radical

/-- **Square-free** — no square of a number above one divides `n`. Zero is not square-free. -/
def SquareFree (n : Nat) : Prop :=
  ∀ d, d * d ∣ n → d = 1

theorem squareFree_one : SquareFree 1 := by
  intro d h
  have := Nat.le_of_dvd (by omega) h
  match d with
  | 0 => simp at h
  | 1 => rfl
  | d + 2 =>
    have : (d + 2) * 1 ≤ (d + 2) * (d + 2) := Nat.mul_le_mul_left _ (by omega)
    omega

theorem SquareFree.pos {n : Nat} (h : SquareFree n) : 0 < n := by
  rcases Nat.eq_zero_or_pos n with rfl | hn
  · exact absurd (h 2 ⟨0, rfl⟩) (by omega)
  · exact hn

/-! ## Dividing out one square -/

/-- Divides `m` by `i * i` as often as it goes, collecting the factors `i` in `k`. -/
def peelSquare (i k m : Nat) : Nat × Nat :=
  if 1 < i ∧ 0 < m ∧ m % (i * i) = 0 then peelSquare i (k * i) (m / (i * i)) else (k, m)
termination_by m
decreasing_by
  rename_i h
  have : 1 * 1 < i * i := Nat.mul_lt_mul'' h.1 h.1
  exact Nat.div_lt_self h.2.1 (by omega)

theorem peelSquare_eq (i k m : Nat) :
    (peelSquare i k m).1 * (peelSquare i k m).1 * (peelSquare i k m).2 = k * k * m := by
  fun_induction peelSquare i k m with
  | case1 k m h ih =>
    rw [ih]
    have split : i * i * (m / (i * i)) = m := Nat.mul_div_cancel' (Nat.dvd_of_mod_eq_zero h.2.2)
    calc k * i * (k * i) * (m / (i * i)) = k * k * (i * i * (m / (i * i))) := by
          simp only [Nat.mul_comm, Nat.mul_assoc, Nat.mul_left_comm]
      _ = k * k * m := by rw [split]
  | case2 => rfl

theorem peelSquare_dvd (i k m : Nat) : (peelSquare i k m).2 ∣ m := by
  fun_induction peelSquare i k m with
  | case1 k m h ih => exact Nat.dvd_trans ih (Nat.div_dvd_of_dvd (Nat.dvd_of_mod_eq_zero h.2.2))
  | case2 => exact Nat.dvd_refl _

theorem peelSquare_pos {i k m : Nat} (h : 0 < m) : 0 < (peelSquare i k m).2 :=
  Nat.pos_of_dvd_of_pos (peelSquare_dvd i k m) h

theorem peelSquare_not_dvd {i k m : Nat} (hi : 1 < i) (h : 0 < m) :
    ¬ i * i ∣ (peelSquare i k m).2 := by
  fun_induction peelSquare i k m with
  | case1 k m hd ih =>
    have : 1 * 1 < i * i := Nat.mul_lt_mul'' hi hi
    exact ih (Nat.div_pos (Nat.le_of_dvd h (Nat.dvd_of_mod_eq_zero hd.2.2)) (by omega))
  | case2 k m hd =>
    intro dvd
    exact hd ⟨hi, h, Nat.mod_eq_zero_of_dvd dvd⟩

/-! ## Dividing out all squares -/

/-- Divides out the squares of `i`, `i + 2`, `i + 4`, … while they are not above what is left. -/
def peelFrom (i k m : Nat) : Nat × Nat :=
  if 0 < i ∧ i * i ≤ m then
    peelFrom (i + 2) (peelSquare i k m).1 (peelSquare i k m).2
  else (k, m)
termination_by m + 1 - i
decreasing_by
  rename_i h
  have : i * 1 ≤ i * i := Nat.mul_le_mul_left i h.1
  have : (peelSquare i k m).2 ≤ m := Nat.le_of_dvd (by omega) (peelSquare_dvd i k m)
  omega

theorem peelFrom_eq (i k m : Nat) :
    (peelFrom i k m).1 * (peelFrom i k m).1 * (peelFrom i k m).2 = k * k * m := by
  fun_induction peelFrom i k m with
  | case1 i k m _ ih => rw [ih, peelSquare_eq]
  | case2 => rfl

/-- If no square of a number below the odd number `i` divides `m`, then what `peelFrom` leaves is
square-free. An even number needs no test of its own: its square is a multiple of four. -/
theorem peelFrom_squareFree {i k m : Nat} (odd : i % 2 = 1) (two : 2 < i) (pos : 0 < m)
    (below : ∀ d, 1 < d → d < i → ¬ d * d ∣ m) : SquareFree (peelFrom i k m).2 := by
  fun_induction peelFrom i k m with
  | case1 i k m h ih =>
    refine ih (by omega) (by omega) (peelSquare_pos pos) ?_
    intro d hd hlt dvd
    have dvd_m := Nat.dvd_trans dvd (peelSquare_dvd i k m)
    rcases Nat.lt_trichotomy d i with hdi | rfl | hdi
    · exact below d hd hdi dvd_m
    · exact peelSquare_not_dvd hd pos dvd
    · have even : d = 2 * ((i + 1) / 2) := by omega
      refine below 2 (by omega) two (Nat.dvd_trans ?_ dvd_m)
      rw [even]
      exact ⟨(i + 1) / 2 * ((i + 1) / 2), by
        simp only [Nat.mul_comm, Nat.mul_left_comm]⟩
  | case2 i k m h =>
    intro d dvd
    have le := Nat.le_of_dvd pos dvd
    rcases Nat.lt_trichotomy d 1 with h0 | h1 | h2
    · have : d = 0 := by omega
      subst this
      simp at dvd
      omega
    · exact h1
    · rcases Nat.lt_or_ge d i with hdi | hdi
      · exact absurd dvd (below d h2 hdi)
      · have : i * i ≤ d * d := Nat.mul_le_mul hdi hdi
        omega

/-- Divides out all squares: that of two, then those of the odd numbers. -/
def peelSquares (n : Nat) : Nat × Nat :=
  peelFrom 3 (peelSquare 2 1 n).1 (peelSquare 2 1 n).2

theorem peelSquares_eq (n : Nat) :
    (peelSquares n).1 * (peelSquares n).1 * (peelSquares n).2 = n := by
  rw [peelSquares, peelFrom_eq, peelSquare_eq]
  omega

theorem peelSquares_squareFree {n : Nat} (pos : 0 < n) : SquareFree (peelSquares n).2 := by
  refine peelFrom_squareFree (by omega) (by omega) (peelSquare_pos pos) ?_
  intro d h1 h3
  have : d = 2 := by omega
  subst this
  exact peelSquare_not_dvd (by omega) pos

/-! ## The split -/

/-- **The square part and the square-free part of a number.** Perfect squares of any size are split
at once; any other number is searched for square divisors, and refused above `factorLimit`. -/
def splitSquare (n : Nat) : Except Error (Nat × Nat) :=
  if n ≠ 0 ∧ n.sqrt * n.sqrt = n then .ok (n.sqrt, 1)
  else
    match Rational.checkFactorable n with
    | .error e => .error e
    | .ok () => .ok (peelSquares n)

theorem splitSquare_eq {n : Nat} {p : Nat × Nat} (h : splitSquare n = .ok p) :
    p.1 * p.1 * p.2 = n := by
  unfold splitSquare at h
  split at h
  · rename_i square
    cases h
    simpa using square.2
  · split at h
    · cases h
    · cases h
      exact peelSquares_eq n

theorem splitSquare_squareFree {n : Nat} {p : Nat × Nat} (pos : 0 < n)
    (h : splitSquare n = .ok p) : SquareFree p.2 := by
  unfold splitSquare at h
  split at h
  · cases h
    exact squareFree_one
  · split at h
    · cases h
    · cases h
      exact peelSquares_squareFree pos

example : (splitSquare 72).toOption = some (6, 2) := by decide +kernel

end ExactAlgebra.Radical
