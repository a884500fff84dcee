import ExactAlgebra.Proofs.Factoring.Product
import ExactAlgebra.Proofs.Poly.Represents

/-!
# The product of the factors of a polynomial

Multiplied with the arithmetic of polynomials, the factors of either level give the polynomial that
was factored. A polynomial that names no variable has its factors in `x`, so that in this case only
the terms come back.

## Main statements

* `product_represents` — products of polynomials in one variable;
* `Dense.represents_poly`, `Dense.dense_poly` — the polynomial of a coefficient list;
* `factorWith_product` — the product of the factors, for every factoring that multiplies back.

## Main definitions

* `Poly.product` — the product of a list of polynomials.
-/

namespace ExactAlgebra

open Polynomial

namespace Poly

/-- **The product of some polynomials**, from left to right. -/
def product (ps : List Poly) : Except Error Poly :=
  ps.foldlM mul (constant (.ofRat 1) "")

/-- **Products of polynomials in one variable** never fail. -/
theorem foldlM_mul_represents {symbol : String} {value : Poly → ℚ[X]} {acc : Poly} {v : ℚ[X]}
    (start : acc.Represents symbol v) {ps : List Poly}
    (each : ∀ p ∈ ps, p.Represents symbol (value p)) :
    ∃ r, ps.foldlM mul acc = .ok r ∧ r.Represents symbol (v * (ps.map value).prod) := by
  induction ps generalizing acc v with
  | nil => exact ⟨acc, rfl, by simpa using start⟩
  | cons p rest ih =>
    obtain ⟨here, there⟩ := List.forall_mem_cons.mp each
    obtain ⟨next, multiplied, represents⟩ := start.mul here
    obtain ⟨r, folded, result⟩ := ih represents there
    refine ⟨r, ?_, ?_⟩
    · rw [List.foldlM_cons, multiplied]
      exact folded
    · rwa [List.map_cons, List.prod_cons, ← mul_assoc]

theorem product_represents {symbol : String} {value : Poly → ℚ[X]} {ps : List Poly}
    (each : ∀ p ∈ ps, p.Represents symbol (value p)) :
    ∃ r, product ps = .ok r ∧ r.Represents symbol (ps.map value).prod := by
  obtain ⟨r, folded, result⟩ := foldlM_mul_represents (represents_constant 1 symbol) each
  exact ⟨r, folded, by rwa [C_1, one_mul] at result⟩

end Poly

namespace Dense

theorem represents_poly (d : Dense) : d.poly.Represents d.symbol (polynomialOf d.coefficients) where
  natural := Poly.isNatural_ofCoefficients _ _
  value := Poly.toPolynomial_ofCoefficients _ _
  named := .inl rfl

/-- A factor has the coefficients that it is made of, and their degree. -/
theorem dense_poly {d : Dense} (leading : HasLeading d.coefficients) :
    d.poly.dense = .ok d.coefficients ∧
      d.poly.degree? = some ((d.coefficients.length - 1 : ℕ) : ℚ) := by
  have represents := represents_poly d
  obtain ⟨cs, found, value, shape⟩ := Poly.dense_natural represents.natural
  have same : cs = d.coefficients :=
    eq_of_leading (shape.imp And.left And.left) (.inr leading) (value.trans represents.value)
  rcases shape with ⟨rfl, -⟩ | ⟨-, degree⟩
  · obtain ⟨a, rest, -, some⟩ := leading
    cases same.trans some
  · rw [same] at found degree
    exact ⟨found, degree⟩

/-- The variable of the factors. -/
def Factors.symbol (f : Factors) (d : Dense) : String :=
  if f.front = [] ∨ d.symbol ≠ "" then d.symbol else "x"

/-- **The factors as a list**, all in one variable. A polynomial that was not split is what is left
over. -/
theorem Factors.Splits.pieces_eq {f : Factors} {d : Dense} (splits : f.Splits d.coefficients)
    (leading : HasLeading d.coefficients) :
    f.pieces d = f.all.map fun coefficients => ⟨coefficients, f.symbol d⟩ := by
  rw [Factors.pieces, Factors.symbol, Factors.all]
  split
  · rename_i none
    have product := splits.product
    rw [Factors.all, none, List.nil_append, List.map_singleton, List.prod_singleton] at product
    have whole := eq_of_leading (.inr splits.leading_rest) (.inr leading) product
    rw [none, whole]
    simp
  · rename_i some
    have front : f.front ≠ [] := some
    by_cases nameless : d.symbol = "" <;> simp [nameless, front]

/-- The factors as a list multiply back. -/
theorem Factors.Splits.pieces {f : Factors} {d : Dense} (splits : f.Splits d.coefficients)
    (leading : HasLeading d.coefficients) :
    ((f.pieces d).map fun piece => polynomialOf piece.coefficients).prod =
        polynomialOf d.coefficients ∧
      ∀ piece ∈ f.pieces d, piece.symbol = f.symbol d ∧ HasLeading piece.coefficients := by
  rw [splits.pieces_eq leading]
  refine ⟨?_, fun piece mem => ?_⟩
  · rw [List.map_map]
    exact splits.product
  · obtain ⟨coefficients, inside, rfl⟩ := List.mem_map.mp mem
    exact ⟨rfl, splits.leading coefficients inside⟩

end Dense

namespace Poly

open ExactAlgebra.Dense

/-- The factors of a polynomial that is not zero. -/
theorem factorWith_of_leading (factors : List ℚ → Factors) {p : Poly} {cs : List ℚ}
    (found : p.dense = .ok cs) (leading : HasLeading cs) :
    p.factorWith factors = .ok (((factors cs).pieces ⟨cs, p.symbol⟩).map Dense.poly) := by
  have present : cs ≠ [] := by
    obtain ⟨a, rest, -, rfl⟩ := leading
    simp
  rw [factorWith, found]
  exact congrArg Except.ok (if_neg present)

/-- **The factors of a polynomial multiply back** with its own arithmetic. A polynomial without a
letter has its factors in `x`; then the terms come back. -/
theorem factorWith_product {factors : List ℚ → Factors}
    (splits : ∀ {cs : List ℚ}, HasLeading cs → (factors cs).Splits cs) {p : Poly}
    (natural : p.IsNatural) :
    ∃ ps r, p.factorWith factors = .ok ps ∧ product ps = .ok r ∧ r.terms = p.terms ∧
      (p.symbol ≠ "" ∨ p.isConstant = true → r.same p = true) := by
  obtain ⟨cs, found, value, none | some⟩ := dense_natural natural
  · -- the zero polynomial is its own only factor
    obtain ⟨rfl, -⟩ := none
    have self : p.Represents p.symbol p.toPolynomial := ⟨natural, rfl, .inl rfl⟩
    have each : ∀ q ∈ [p], q.Represents p.symbol q.toPolynomial := by simpa using self
    obtain ⟨r, multiplied, represents⟩ := product_represents each
    have whole : r.Represents p.symbol p.toPolynomial := by simpa using represents
    refine ⟨[p], r, ?_, multiplied, whole.terms_eq self, fun _ => whole.same natural (.inl rfl)⟩
    rw [factorWith, found]
    rfl
  · obtain ⟨leading, -⟩ := some
    obtain ⟨whole, each⟩ := (splits leading).pieces (d := ⟨cs, p.symbol⟩) leading
    have represents : ∀ q ∈ ((factors cs).pieces ⟨cs, p.symbol⟩).map Dense.poly,
        q.Represents ((factors cs).symbol ⟨cs, p.symbol⟩) q.toPolynomial := by
      intro q mem
      obtain ⟨piece, inside, rfl⟩ := List.mem_map.mp mem
      have here := represents_poly piece
      rw [(each piece inside).1] at here
      rwa [here.value]
    obtain ⟨r, multiplied, result⟩ := product_represents represents
    have total : ((((factors cs).pieces ⟨cs, p.symbol⟩).map Dense.poly).map toPolynomial).prod =
        p.toPolynomial := by
      rw [← value, ← whole, List.map_map]
      congr 2
      funext piece
      exact (represents_poly piece).value
    rw [total] at result
    refine ⟨_, r, factorWith_of_leading factors found leading, multiplied, ?_,
      fun named => result.same natural ?_⟩
    · exact terms_eq_of_toPolynomial_eq result.natural natural result.value
    · rw [Factors.symbol]
      refine named.imp_left fun name => ?_
      rw [if_pos (.inr name)]

end Poly

end ExactAlgebra
