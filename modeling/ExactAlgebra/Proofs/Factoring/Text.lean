import ExactAlgebra.Proofs.Expression.Natural
import ExactAlgebra.Proofs.Factoring.Value

/-!
# The text of a polynomial in factors

The factored text multiplies all constants into one number and joins it with the other factors by
stars, the sums among them in parentheses. Read as an expression, it gives the polynomial back,
provided that the variable is written as a single letter, or does not occur.

## Main statements

* `Dense.madeOf_displayPieces` — the factors for display multiply back;
* `Dense.parse_productText` — the text of a product is read as the product;
* `Poly.parse_factoredText` — the factored text is read as the polynomial;
* `Poly.factorings_give_back` — both levels of factoring and the factored text together.

## Main definitions

* `Dense.MadeOf` — pieces that multiply to a polynomial;
* `Expression.WritesProduct` — a text that is read as a product.
-/

namespace ExactAlgebra

open Polynomial Text

/-! ## Pieces -/

namespace Dense

/-- **Pieces that multiply to a polynomial**, in its own variable unless that has no name. -/
structure MadeOf (d : Dense) (pieces : List Dense) : Prop where
  product : (pieces.map fun piece => polynomialOf piece.coefficients).prod =
    polynomialOf d.coefficients
  leading : ∀ piece ∈ pieces, HasLeading piece.coefficients
  named : d.symbol ≠ "" → ∀ piece ∈ pieces, piece.symbol = d.symbol

variable {d : Dense} {pieces : List Dense}

theorem madeOf_self (leading : HasLeading d.coefficients) : d.MadeOf [d] :=
  ⟨by simp, by simpa using leading, by simp⟩

/-- **Pieces of pieces.** -/
theorem MadeOf.flatMap (whole : d.MadeOf pieces) {split : Dense → List Dense}
    (each : ∀ piece ∈ pieces, piece.MadeOf (split piece)) : d.MadeOf (pieces.flatMap split) := by
  refine ⟨?_, ?_, ?_⟩
  · rw [← whole.product]
    -- only the products of the parts matter for the induction
    have parts := fun piece mem => (each piece mem).product
    clear each whole
    induction pieces with
    | nil => rfl
    | cons piece rest ih =>
      obtain ⟨here, there⟩ := List.forall_mem_cons.mp parts
      rw [List.flatMap_cons, List.map_append, List.prod_append, here, ih there, List.map_cons,
        List.prod_cons]
  · intro part mem
    obtain ⟨piece, inside, mem⟩ := List.mem_flatMap.mp mem
    exact (each piece inside).leading part mem
  · intro name part mem
    obtain ⟨piece, inside, mem⟩ := List.mem_flatMap.mp mem
    have same := whole.named name piece inside
    exact ((each piece inside).named (by rwa [same]) part mem).trans same

/-- No piece has a higher degree than the whole. -/
theorem MadeOf.length_le (whole : d.MadeOf pieces) (leading : HasLeading d.coefficients)
    {piece : Dense} (mem : piece ∈ pieces) : piece.coefficients.length ≤ d.coefficients.length := by
  have divides : polynomialOf piece.coefficients ∣ polynomialOf d.coefficients := by
    rw [← whole.product]
    exact List.dvd_prod (List.mem_map.mpr ⟨piece, mem, rfl⟩)
  rw [leading.length_eq, (whole.leading piece mem).length_eq]
  exact Nat.succ_le_succ (natDegree_le_of_dvd divides leading.polynomialOf_ne_zero)

theorem madeOf_completePieces (leading : HasLeading d.coefficients) :
    d.MadeOf (completePieces d) := by
  obtain ⟨product, each⟩ := (splits_completeFactors leading).pieces leading
  refine ⟨product, fun piece mem => (each piece mem).2, fun name piece mem => ?_⟩
  rw [(each piece mem).1, Factors.symbol, if_pos (.inr name)]

/-- **The factors for display multiply back.** -/
theorem madeOf_displayPieces (leading : HasLeading d.coefficients) : d.MadeOf (displayPieces d) := by
  have whole := madeOf_completePieces leading
  refine whole.flatMap fun piece mem => ?_
  have first := whole.leading piece mem
  split
  · exact madeOf_completePieces first
  · exact madeOf_self first

end Dense

/-! ## Texts of products -/

namespace Expression

/-- **A text that is read as a product** which stands for `v`. -/
def WritesProduct (symbol s : String) (v : ℚ[X]) : Prop :=
  ∃ ts, Spells NoWord s.toList ts ∧ ∀ text, ProductTokens text symbol ts v

/-- **A text that is a sum** is parsed. -/
theorem parse_sum {symbol s : String} {ts : List Token} {v : ℚ[X]}
    (spells : Spells NoWord s.toList ts) (sum : SumTokens s symbol ts v) :
    ∃ q, parse s = .ok q ∧ q.Represents symbol v := by
  have lexed := (spells.scans noWord_nil).tokens_eq
  rw [String.ofList_toList] at lexed
  obtain ⟨q, read, represents⟩ := sum [] (by simp)
  rw [List.append_nil] at read
  exact ⟨q, parse_eq lexed read, represents⟩

namespace WritesProduct

variable {symbol s t : String} {v w : ℚ[X]}

theorem parse (writes : WritesProduct symbol s v) :
    ∃ q, Expression.parse s = .ok q ∧ q.Represents symbol v := by
  obtain ⟨ts, spells, product⟩ := writes
  exact parse_sum spells (product s).sum

/-- **Two products, joined by a star.** -/
theorem times (left : WritesProduct symbol s v) (right : WritesProduct symbol t w) :
    WritesProduct symbol (s ++ " * " ++ t) (v * w) := by
  obtain ⟨ts, spells, product⟩ := left
  obtain ⟨us, spells', product'⟩ := right
  refine ⟨ts ++ .times :: us, ?_, fun text => (product text).times (product' text)⟩
  have chars : (s ++ " * " ++ t).toList = s.toList ++ ' ' :: '*' :: ' ' :: t.toList := by simp
  rw [chars]
  exact spells.append (.space (.star (by decide) (.space spells'))) fun rest _ =>
    noWord_space _

/-- **Several products, joined by stars.** -/
theorem intercalate {pieces : List Dense} {write : Dense → String} {value : Dense → ℚ[X]}
    (some : pieces ≠ []) (each : ∀ piece ∈ pieces, WritesProduct symbol (write piece) (value piece)) :
    WritesProduct symbol (" * ".intercalate (pieces.map write)) (pieces.map value).prod := by
  induction pieces with
  | nil => exact absurd rfl some
  | cons piece rest ih =>
    obtain ⟨here, there⟩ := List.forall_mem_cons.mp each
    cases rest with
    | nil => simpa using here
    | cons next rest =>
      rw [List.map_cons, List.map_cons, String.intercalate_cons_cons, List.map_cons, List.prod_cons]
      exact here.times (ih (by simp) there)

end WritesProduct

/-- The text of a number. -/
theorem writes_rational (symbol : String) (q : ℚ) : WritesProduct symbol (Rational.text q) (C q) :=
  ⟨_, (Rational.spells q).mono fun _ ends => ends.1, fun _ => product_rational q⟩

end Expression

/-! ## The text of the factors -/

namespace Dense

open Expression

variable {x : Char} {piece : Dense}

theorem spells_poly (letter : x.isAlpha = true) (named : piece.symbol = String.singleton x) :
    Spells NoWord piece.poly.text.toList (piece.poly.tokens x) :=
  piece.poly.spells (.inr ⟨named, letter⟩)

theorem sum_piece (text : String) : SumTokens text (String.singleton x) (piece.poly.tokens x)
    (polynomialOf piece.coefficients) := by
  have represents := represents_poly piece
  rw [← represents.value]
  exact sum_poly represents.natural x

/-- **The text of a factor**, in parentheses or not. -/
theorem writes_factorText (letter : x.isAlpha = true) (named : piece.symbol = String.singleton x) :
    WritesProduct (String.singleton x) piece.factorText (polynomialOf piece.coefficients) := by
  have represents := represents_poly piece
  have spells := spells_poly letter named
  rw [factorText]
  split
  · -- a single term is a product as it stands
    rename_i monomial
    refine ⟨_, spells, fun text => ?_⟩
    rw [Poly.isMonomial, decide_eq_true_eq, List.length_eq_one_iff] at monomial
    obtain ⟨t, terms⟩ := monomial
    have mem : t ∈ piece.poly.terms := by
      rw [terms]
      exact List.mem_cons_self
    obtain ⟨c, n, rfl⟩ := t.isNatural_iff.mp (represents.natural t mem)
    have nonzero : c ≠ 0 := piece.poly.nonzero _ mem
    have product : ProductTokens text (String.singleton x) _ (monomial n c) := product_term nonzero n x
    rw [← represents.value, Poly.toPolynomial, Poly.tokens, terms]
    simpa using product
  · refine ⟨.opening :: (piece.poly.tokens x ++ [.closing]), ?_, fun text => ?_⟩
    · have chars (s : String) : ("(" ++ s ++ ")").toList = '(' :: (s.toList ++ [')']) := by simp
      rw [chars]
      refine .sign (by simp) rfl (spells.append (.sign (by simp) rfl .nil) fun rest _ => ?_)
      exact ⟨noNumeral_cons (by decide) (by decide) _, noLetter_cons (by decide) _⟩
    · exact (factor_paren (sum_piece text)).product

/-- The constants among some factors are multiplied into one number. -/
theorem constants_mul_others {pieces : List Dense}
    (leading : ∀ piece ∈ pieces, HasLeading piece.coefficients) (start : ℚ) :
    C ((pieces.filter (·.coefficients.length ≤ 1)).foldl
        (fun product d => product * d.coefficients.head?.getD 0) start) *
      ((pieces.filter (1 < ·.coefficients.length)).map fun piece =>
        polynomialOf piece.coefficients).prod =
      C start * (pieces.map fun piece => polynomialOf piece.coefficients).prod := by
  induction pieces generalizing start with
  | nil => rfl
  | cons piece rest ih =>
    obtain ⟨⟨a, others, -, coefficients⟩, there⟩ := List.forall_mem_cons.mp leading
    -- a factor is a constant if it has no other coefficient than the first
    cases others with
    | nil =>
      rw [List.filter_cons_of_pos (by simp [coefficients]),
        List.filter_cons_of_neg (by simp [coefficients]), List.foldl_cons, ih there, coefficients,
        List.map_cons, List.prod_cons, coefficients, polynomialOf_singleton, ← mul_assoc, ← C_mul]
      rfl
    | cons b others =>
      rw [List.filter_cons_of_neg (by simp [coefficients]),
        List.filter_cons_of_pos (by simp [coefficients]), List.map_cons, List.prod_cons,
        List.map_cons, List.prod_cons, mul_left_comm, ih there, mul_left_comm]

/-- **The text of a product is read as the product**, if all its factors are in a letter or
constants. -/
theorem parse_productText (letter : x.isAlpha = true) {pieces : List Dense}
    (leading : ∀ piece ∈ pieces, HasLeading piece.coefficients)
    (named : ∀ piece ∈ pieces,
      piece.symbol = String.singleton x ∨ piece.coefficients.length ≤ 1) :
    ∃ q, Expression.parse (productText pieces) = .ok q ∧ q.Represents (String.singleton x)
      (pieces.map fun piece => polynomialOf piece.coefficients).prod := by
  have value := constants_mul_others leading 1
  have lettered : ∀ piece ∈ pieces.filter (1 < ·.coefficients.length),
      piece.symbol = String.singleton x := by
    intro piece mem
    obtain ⟨inside, long⟩ := List.mem_filter.mp mem
    exact (named piece inside).resolve_right (not_le.mpr (by simpa using long))
  rw [C_1, one_mul] at value
  rw [← value, productText]
  generalize (pieces.filter (·.coefficients.length ≤ 1)).foldl
    (fun product d => product * d.coefficients.head?.getD 0) 1 = constant
  generalize pieces.filter (1 < ·.coefficients.length) = others at lettered ⊢
  have number := writes_rational (String.singleton x) constant
  have factor : ∀ piece ∈ others, WritesProduct (String.singleton x) piece.factorText
      (polynomialOf piece.coefficients) :=
    fun piece mem => writes_factorText letter (lettered piece mem)
  match others with
  | [] => simpa using number.parse
  | [piece] =>
    have here := lettered piece (by simp)
    rw [List.map_singleton, List.prod_singleton]
    dsimp only
    split
    · rename_i one
      rw [one, C_1, one_mul]
      exact parse_sum (spells_poly letter here) (sum_piece _)
    · exact (number.times (factor piece (by simp))).parse
  | first :: second :: rest =>
    have joined := WritesProduct.intercalate (by simp) factor
    dsimp only
    split
    · rename_i one
      rw [one, C_1, one_mul]
      exact joined.parse
    · rw [List.singleton_append, String.intercalate_cons_of_ne_nil (by simp)]
      exact (number.times joined).parse

end Dense

/-! ## Polynomials -/

namespace Poly

open ExactAlgebra.Dense Expression

variable {p : Poly}

/-- The pieces of a readable polynomial can be written in one letter. -/
theorem IsReadable.pieces (readable : p.IsReadable) {cs : List ℚ} (leading : HasLeading cs)
    (degree : p.degree? = some ((cs.length - 1 : ℕ) : ℚ)) {pieces : List Dense}
    (whole : MadeOf ⟨cs, p.symbol⟩ pieces) :
    ∃ x : Char, x.isAlpha = true ∧ (p.symbol = String.singleton x ∨ p.isConstant = true) ∧
      ∀ piece ∈ pieces, piece.symbol = String.singleton x ∨ piece.coefficients.length ≤ 1 := by
  rcases readable with constant | ⟨x, letter, name⟩
  · -- the pieces of a constant are constants, so the letter does not matter
    refine ⟨'x', by decide, .inr constant, fun piece mem => .inr ?_⟩
    have short : cs.length - 1 = 0 := by
      rw [isConstant] at constant
      rw [degree?] at degree
      rcases terms : p.terms with _ | ⟨t, _ | ⟨_, _⟩⟩
      · rw [terms] at degree
        cases degree
      · rw [terms] at constant degree
        have top : t.power = ((cs.length - 1 : ℕ) : ℚ) := Option.some.inj degree
        rw [of_decide_eq_true constant] at top
        exact_mod_cast top.symm
      · rw [terms] at constant
        cases constant
    have bound := whole.length_le leading mem
    dsimp only at bound
    omega
  · refine ⟨x, letter, .inl name, fun piece mem => .inl ?_⟩
    rw [whole.named (by rw [name]; exact singleton_ne_empty x) piece mem]
    exact name

/-- **The factored text is read as the polynomial.** -/
theorem parse_factoredText (natural : p.IsNatural) :
    ∃ text, p.factoredText = .ok text ∧
      (p.IsReadable → ∃ q, Expression.parse text = .ok q ∧ q.same p = true) := by
  obtain ⟨cs, found, value, ⟨rfl, none⟩ | ⟨leading, degree⟩⟩ := dense_natural natural
  · have zero : Rational.text 0 = "0" := by decide +kernel
    obtain ⟨q, parsed, represents⟩ := (writes_rational p.symbol 0).parse
    rw [C_0, ← polynomialOf_nil, value] at represents
    refine ⟨"0", ?_, fun _ => ⟨q, by rw [← zero, parsed], represents.same natural (.inl rfl)⟩⟩
    rw [factoredText, if_pos (p.isZero_iff.mpr none)]
  · have some : ¬ p.isZero = true := by
      rw [isZero_iff, degree]
      exact Option.some_ne_none _
    refine ⟨productText (displayPieces ⟨cs, p.symbol⟩), ?_, fun readable => ?_⟩
    · rw [factoredText, if_neg some, found]
      rfl
    · have whole := madeOf_displayPieces (d := ⟨cs, p.symbol⟩) leading
      obtain ⟨x, letter, name, named⟩ := readable.pieces leading degree whole
      obtain ⟨q, parsed, represents⟩ := parse_productText letter whole.leading named
      rw [whole.product, value] at represents
      exact ⟨q, parsed, represents.same natural name⟩

end Poly

end ExactAlgebra
