import ExactAlgebra.Proofs.Radical.Cancellation
import ExactAlgebra.Proofs.Radical.Sum
import ExactAlgebra.Vector.Basic

/-!
# Unit vectors

The length of a vector is one radical, and every entry of the unit vector is a rational divided by it.
So all of these entries have the radicand of the length, or are zero. That is why nothing is refused
when they are multiplied by the length, or by themselves: the radicand that is met is a square, and
squares of any size are taken out. What comes of it is rational, and rationals always have a sum.

## Main statements

* `Radical.mul_self`, `Radical.square_of_div` — the square of a radical, and of a quotient;
* `Radical.exists_div` — which quotients of rationals by radicals there are;
* `Radical.sumFrom_ofRat` — sums of rationals;
* `norm_eq_bind`, `product_self`, `square_norm` — the length;
* `exists_normalize` — the entries of the unit vector;
* `normalize_isUnit` — what they are multiplied by the length, and squared.

## Main definitions

* `Radical.square` — the square of a radical, as a rational.
-/

namespace ExactAlgebra

namespace Radical

variable {a b c : Radical}

/-! ## Squares of radicals -/

/-- **The square of a radical**, as a rational. -/
def square (a : Radical) : ℚ :=
  a.coefficient ^ 2 * a.radicand

theorem cast_square (a : Radical) : (a.square : ℝ) = a.real ^ 2 := by
  rw [square, real, mul_pow, Real.sq_sqrt (Nat.cast_nonneg _)]
  push_cast
  rfl

theorem square_ofRat (q : ℚ) : (ofRat q).square = q ^ 2 := by
  simp [square, ofRat]

/-- **A radical times itself** is its square, and it is never refused. -/
theorem mul_self (a : Radical) : a.mul a = .ok (ofRat a.square) := by
  obtain ⟨b, product⟩ : ∃ b, a.mul a = .ok b := by
    unfold mul
    rw [← Nat.cast_mul]
    by_cases zero : a.coefficient = 0
    · rw [zero, mul_zero]
      exact ⟨_, make_zero _ (Nat.cast_nonneg _)⟩
    · -- the radicand that is met is a square
      exact (make_whole (mul_ne_zero zero zero) (Nat.mul_pos a.squareFree.pos a.squareFree.pos)).1
        (.inl ⟨a.radicand, rfl⟩)
  have value : b.real = (ofRat a.square).real := by
    rw [real_mul product, real_ofRat, cast_square, pow_two]
  rw [product, real_injective value]

/-- The square of a quotient. -/
theorem square_of_div (quotient : a.div b = .ok c) : c.square = a.square / b.square := by
  have value : (c.square : ℝ) = ((a.square / b.square : ℚ) : ℝ) := by
    rw [cast_square, (real_div quotient).2, div_pow, ← cast_square, ← cast_square, Rat.cast_div]
  exact_mod_cast value

/-- **A rational has a quotient** by every radical that can be made and is not zero. -/
theorem exists_div (made : b.IsMade) (nonzero : b.coefficient ≠ 0) (q : ℚ) :
    ∃ c, (ofRat q).div b = .ok c := by
  have isSome : ¬ b.isZero = true := mt isZero_eq_true_iff.mp nonzero
  rw [div, if_neg isSome]
  simp only [ofRat, Nat.cast_one, one_mul]
  exact ⟨_, made.make_coefficient _⟩

/-- A rational that was divided by a radical comes back. -/
theorem mul_of_div_ofRat {q : ℚ} (quotient : (ofRat q).div b = .ok c) : c.mul b = .ok (ofRat q) := by
  rw [mul_of_div quotient, returned, if_pos (.inl rfl)]

/-- **Rationals always have a sum.** -/
theorem sumFrom_ofRat (p : ℚ) (qs : List ℚ) :
    sumFrom (ofRat p) (qs.map ofRat) = .ok (ofRat (p + qs.sum)) := by
  induction qs generalizing p with
  | nil =>
    rw [List.sum_nil, add_zero]
    rfl
  | cons q rest ih => rw [List.map_cons, sumFrom_cons, add_ofRat, bind_ok, ih, List.sum_cons, add_assoc]

end Radical

namespace Vec

variable {v : Vec} {length : Radical}

/-! ## The length -/

/-- **The length in two steps**: the product of the vector with itself, which is never refused, and
its root. -/
theorem norm_eq_bind (v : Vec) : v.norm = v.dot v >>= Radical.sqrt := by
  rw [dot, checkSize, if_pos rfl, bind_ok]
  rfl

/-- The product of a vector with itself. -/
theorem product_self (v : Vec) : v.product v = (v.entries.map (· ^ 2)).sum := by
  rw [product, List.zipWith_self, ← List.sum_eq_foldl]
  simp only [pow_two]

theorem product_self_pos (nonzero : ∃ q ∈ v.entries, q ≠ 0) : 0 < v.product v := by
  have squares : ∀ s ∈ v.entries.map (· ^ 2), (0 : ℚ) ≤ s := by
    intro s mem
    obtain ⟨q, -, rfl⟩ := List.mem_map.mp mem
    exact sq_nonneg q
  obtain ⟨q, mem, some⟩ := nonzero
  rw [product_self]
  calc (0 : ℚ) < q ^ 2 := by positivity
    _ ≤ (v.entries.map (· ^ 2)).sum :=
      List.single_le_sum squares _ (List.mem_map.mpr ⟨q, mem, rfl⟩)

/-- The square of the length. -/
theorem square_norm (known : v.norm = .ok length) : length.square = v.product v :=
  Radical.sq_coefficient_mul_radicand known

/-- The length of a vector that is not zero is not zero. -/
theorem norm_ne_zero (nonzero : ∃ q ∈ v.entries, q ≠ 0) (known : v.norm = .ok length) :
    length.coefficient ≠ 0 := by
  intro zero
  have square := square_norm known
  rw [Radical.square, zero, zero_pow two_ne_zero, zero_mul] at square
  exact (product_self_pos nonzero).ne square

/-! ## The unit vector -/

/-- **The entries of the unit vector** are those of the vector, divided by the length. -/
theorem exists_normalize (nonzero : ∃ q ∈ v.entries, q ≠ 0) (known : v.norm = .ok length) :
    ∃ unit : ℚ → Radical, (∀ q, (Radical.ofRat q).div length = .ok (unit q)) ∧
      v.normalize = .ok (v.entries.map unit) := by
  have some := norm_ne_zero nonzero known
  choose unit quotient using Radical.exists_div ⟨1, _, known⟩ some
  refine ⟨unit, quotient, ?_⟩
  rw [normalize, known, bind_ok, if_neg (mt Radical.isZero_eq_true_iff.mp some)]
  refine mapM_of_forall₂ ?_
  rw [List.forall₂_map_right_iff, List.forall₂_same]
  exact fun q _ => quotient q

/-- **Unit vectors are exact.** Whenever a vector other than zero has a length, its entries can be
divided by it. The quotients can be multiplied by the length, and that gives the entries back; and they
can be squared and added up, and that gives one. -/
theorem normalize_isUnit (nonzero : ∃ q ∈ v.entries, q ≠ 0) (known : v.norm = .ok length) :
    ∃ units, v.normalize = .ok units ∧
      List.Forall₂ (fun u q => u.mul length = .ok (Radical.ofRat q)) units v.entries ∧
      ∃ squares, units.mapM (fun u => u.mul u) = .ok squares ∧
        Radical.sumFrom (Radical.ofRat 0) squares = .ok (Radical.ofRat 1) := by
  obtain ⟨unit, quotient, normalized⟩ := exists_normalize nonzero known
  refine ⟨_, normalized, ?_, (v.entries.map fun q => (unit q).square).map Radical.ofRat, ?_, ?_⟩
  · rw [List.forall₂_map_left_iff, List.forall₂_same]
    exact fun q _ => Radical.mul_of_div_ofRat (quotient q)
  · refine mapM_of_forall₂ ?_
    rw [List.map_map, List.forall₂_map_left_iff, List.forall₂_map_right_iff, List.forall₂_same]
    exact fun q _ => Radical.mul_self (unit q)
  · have square : ∀ q, (unit q).square = q ^ 2 / v.product v := by
      intro q
      rw [Radical.square_of_div (quotient q), Radical.square_ofRat, square_norm known]
    have total : (v.entries.map fun q => (unit q).square).sum = 1 := by
      simp only [square, div_eq_mul_inv]
      rw [List.sum_map_mul_right, ← product_self, mul_inv_cancel₀ (product_self_pos nonzero).ne']
    rw [Radical.sumFrom_ofRat, total, zero_add]

/-- The unit vector in the direction of `[1, -1/2, 0]`, whose length is `√(5/4)`. -/
theorem normalize_isUnit_root : ∃ length units squares, (∃ q ∈ [1, -1 / 2, 0], q ≠ (0 : ℚ)) ∧
    norm ⟨[1, -1 / 2, 0]⟩ = .ok length ∧ normalize ⟨[1, -1 / 2, 0]⟩ = .ok units ∧
    List.Forall₂ (fun u q => u.mul length = .ok (Radical.ofRat q)) units [1, -1 / 2, 0] ∧
    units.mapM (fun u => u.mul u) = .ok squares ∧
    Radical.sumFrom (Radical.ofRat 0) squares = .ok (Radical.ofRat 1) := by
  have nonzero : ∃ q ∈ [1, -1 / 2, 0], q ≠ (0 : ℚ) := ⟨1, List.mem_cons_self, one_ne_zero⟩
  have product : Vec.product ⟨[1, -1 / 2, 0]⟩ ⟨[1, -1 / 2, 0]⟩ = 5 / 4 := by decide +kernel
  obtain ⟨length, known⟩ : ∃ length, norm ⟨[1, -1 / 2, 0]⟩ = .ok length := by
    rw [norm, product]
    exact (Radical.sqrt_isOk_iff (by norm_num)).mpr (.inr (by decide +kernel))
  obtain ⟨units, normalized, back, squares, squared, total⟩ :=
    normalize_isUnit (v := ⟨[1, -1 / 2, 0]⟩) nonzero known
  exact ⟨length, units, squares, nonzero, known, normalized, back, squared, total⟩

end Vec

end ExactAlgebra
