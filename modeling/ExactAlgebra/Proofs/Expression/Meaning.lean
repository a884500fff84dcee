import ExactAlgebra.Proofs.Expression.Derivation
import ExactAlgebra.Proofs.Expression.Lexing
import ExactAlgebra.Proofs.Poly.Real

/-!
# The meaning of an expression

An expression has a meaning of its own, in the real numbers: letters stand for positive numbers, a
decimal numeral for the number that it spells, signs and juxtaposition for the arithmetic of real
numbers, and a power with a rational exponent for the real number that is that power. Not every
expression has a meaning, since a divisor may vanish and a root may not exist. Where an expression is
accepted, it has one, and that is the value of the polynomial it is turned into.

## Main statements

* `StandsFor.add`, `StandsFor.mul`, … — the arithmetic of polynomials;
* `Sum.standsFor`, `Product.standsFor`, … — one case for each way to derive a symbol;
* `parse_denotes` — whole texts.

## Main definitions

* `Sum.Denotes`, `Product.Denotes`, … — the meaning of a derivation;
* `StandsFor` — the values of a polynomial agree with a meaning.
-/

namespace ExactAlgebra

/-! ## Polynomials with a letter that stands for a number -/

namespace Poly

open Radical (IsPower)

/-- **Positive numbers for the letters** of an expression. -/
abbrev Assignment :=
  String → {x : ℝ // 0 < x}

/-- **A polynomial stands for a number** if that is its value at the number its letter stands for. One
without a letter has the value everywhere. -/
def StandsFor (ρ : Assignment) (p : Poly) (v : ℝ) : Prop :=
  ∀ x : {x : ℝ // 0 < x}, (p.symbol ≠ "" → x = ρ p.symbol) → p.realAt x = v

variable {ρ : Assignment} {p q r : Poly} {x : {x : ℝ // 0 < x}} {a b : ℝ}

/-- What the common letter stands for, the letters of both operands stand for. -/
theorem given_of_common {symbol : String} (common : p.commonSymbol q = .ok symbol)
    (given : symbol ≠ "" → x = ρ symbol) :
    (p.symbol ≠ "" → x = ρ p.symbol) ∧ (q.symbol ≠ "" → x = ρ q.symbol) := by
  unfold commonSymbol at common
  split at common
  · cases common
  · rename_i compatible
    cases common
    by_cases none : p.symbol = ""
    · rw [if_pos none] at given
      exact ⟨fun named => absurd none named, given⟩
    · rw [if_neg none] at given
      refine ⟨given, fun named => ?_⟩
      by_cases same : p.symbol = q.symbol
      · rw [← same]
        exact given none
      · exact absurd ⟨none, named, same⟩ compatible

namespace StandsFor

theorem constant (q : ℚ) : (Poly.constant (.ofRat q) "").StandsFor ρ q := by
  intro x _
  rw [realAt_constant, Radical.real_ofRat]

theorem letter (c : Char) : (Poly.power (String.singleton c) 1).StandsFor ρ (ρ (String.singleton c)) := by
  intro x given
  have named : String.singleton c ≠ "" := by simp
  rw [Poly.power, realAt_ofTerm, Term.realAt, Radical.real_ofRat, Rat.cast_one, Real.rpow_one, one_mul]
  exact congrArg Subtype.val (given named)

theorem neg (left : p.StandsFor ρ a) : p.neg.StandsFor ρ (-a) := by
  intro x given
  rw [realAt_neg, left x given]

theorem add (left : p.StandsFor ρ a) (right : q.StandsFor ρ b) (sum : p.add q = .ok r) :
    r.StandsFor ρ (a + b) := by
  intro x given
  obtain ⟨value, common⟩ := realAt_add sum x
  obtain ⟨givenLeft, givenRight⟩ := given_of_common common given
  rw [value, left x givenLeft, right x givenRight]

theorem sub (left : p.StandsFor ρ a) (right : q.StandsFor ρ b) (difference : p.sub q = .ok r) :
    r.StandsFor ρ (a - b) := by
  rw [sub_eq_add_neg]
  exact left.add right.neg difference

theorem mul (left : p.StandsFor ρ a) (right : q.StandsFor ρ b) (product : p.mul q = .ok r) :
    r.StandsFor ρ (a * b) := by
  intro x given
  obtain ⟨value, common⟩ := realAt_mul x.property product
  obtain ⟨givenLeft, givenRight⟩ := given_of_common common given
  rw [value, left x givenLeft, right x givenRight]

/-- The number that a polynomial stands for is its value at what its letter stands for. -/
theorem eq (stands : p.StandsFor ρ a) : p.realAt (ρ p.symbol) = a :=
  stands (ρ p.symbol) fun _ => rfl

/-- A polynomial that something is divided by does not stand for zero. -/
theorem divide (left : p.StandsFor ρ a) (right : q.StandsFor ρ b) (quotient : p.divide q = .ok r) :
    b ≠ 0 ∧ r.StandsFor ρ (a / b) := by
  constructor
  · rw [← right.eq]
    exact (realAt_divide (ρ q.symbol).property quotient).1
  · intro x given
    obtain ⟨-, value, common⟩ := realAt_divide x.property quotient
    obtain ⟨givenLeft, givenRight⟩ := given_of_common common given
    rw [value, left x givenLeft, right x givenRight]

/-- Powers exist where they are computed, and there is one only. -/
theorem raise {e : ℚ} (stands : p.StandsFor ρ a) (power : p.raise e = .ok r) :
    ∃ b, IsPower a e b ∧ r.StandsFor ρ b := by
  have named := (isPower_raise (ρ p.symbol).property power).2
  have raised : ∀ x : {x : ℝ // 0 < x}, (r.symbol ≠ "" → x = ρ r.symbol) →
      IsPower a e (r.realAt x) := by
    intro x given
    rw [named] at given
    rw [← stands x given]
    exact (isPower_raise x.property power).1
  have here := raised (ρ r.symbol) fun _ => rfl
  exact ⟨_, here, fun x given => (raised x given).unique here⟩

/-- An exponent in parentheses is the rational number that its polynomial stands for. -/
theorem exponent {e : ℚ} (stands : p.StandsFor ρ a) (read : Expression.exponentValue p = .ok e) :
    a = e := by
  unfold Expression.exponentValue at read
  split at read
  · rename_i simple
    cases read
    obtain ⟨constant, rational⟩ := Bool.and_eq_true_iff.mp simple
    rw [← stands.eq, realAt_of_isConstant constant, Radical.eq_ofRat rational, Radical.real_ofRat]
    rfl
  · cases read

end StandsFor

end Poly

namespace Grammar

open Expression
open Radical (IsPower)

/-! ## Meanings -/

variable (ρ : Poly.Assignment)

mutual

/-- **The real number that an expression denotes**, if its letters stand for numbers. -/
def Sum.Denotes : Sum → ℝ → Prop
  | .mk first more, v => ∃ a, first.Denotes a ∧ more.Denotes a v

/-- What adding and subtracting make of a number. -/
def Addends.Denotes : Addends → ℝ → ℝ → Prop
  | .nil, sum, v => v = sum
  | .plus p more, sum, v => ∃ a, p.Denotes a ∧ more.Denotes (sum + a) v
  | .minus p more, sum, v => ∃ a, p.Denotes a ∧ more.Denotes (sum - a) v

def Product.Denotes : Product → ℝ → Prop
  | .mk first more, v => ∃ a, first.Denotes a ∧ more.Denotes a v

/-- What multiplying and dividing make of a number. There is no division by zero. -/
def Factors.Denotes : Factors → ℝ → ℝ → Prop
  | .nil, product, v => v = product
  | .times f more, product, v => ∃ a, f.Denotes a ∧ more.Denotes (product * a) v
  | .dividedBy f more, product, v => ∃ a, f.Denotes a ∧ a ≠ 0 ∧ more.Denotes (product / a) v
  | .beside p more, product, v => ∃ a, p.Denotes a ∧ more.Denotes (product * a) v

def Signed.Denotes : Signed → ℝ → Prop
  | .plus f, v => f.Denotes v
  | .minus f, v => ∃ a, f.Denotes a ∧ v = -a
  | .power p, v => p.Denotes v

/-- Exponents are rational numbers. -/
def Power.Denotes : Power → ℝ → Prop
  | .plain base, v => base.Denotes v
  | .raised base e, v => ∃ a, base.Denotes a ∧ ∃ q : ℚ, e.Denotes q ∧ IsPower a q v

def Exponent.Denotes : Exponent → ℝ → Prop
  | .plain a, v => a.Denotes v
  | .plus a, v => a.Denotes v
  | .minus a, v => ∃ b, a.Denotes b ∧ v = -b

def Amount.Denotes : Amount → ℝ → Prop
  | .number spelling, v => v = Rational.decimal spelling.toList
  | .paren inner, v => inner.Denotes v

def Primary.Denotes : Primary → ℝ → Prop
  | .number spelling, v => v = Rational.decimal spelling.toList
  | .letter c, v => v = ρ (String.singleton c)
  | .sqrt inner, v => ∃ a, inner.Denotes a ∧ IsPower a (1 / 2) v
  | .paren inner, v => inner.Denotes v

end

/-! ## What is accepted has a meaning -/

/-- The numbers among some tokens are decimal numerals. -/
def NumeralsIn (ts : List Token) : Prop :=
  ∀ spelling, .number spelling ∈ ts → Rational.IsNumeral spelling.toList

theorem NumeralsIn.append {ts us : List Token} (numerals : NumeralsIn (ts ++ us)) :
    NumeralsIn ts ∧ NumeralsIn us :=
  ⟨fun _ mem => numerals _ (List.mem_append_left _ mem),
    fun _ mem => numerals _ (List.mem_append_right _ mem)⟩

theorem NumeralsIn.tail {t : Token} {ts : List Token} (numerals : NumeralsIn (t :: ts)) :
    NumeralsIn ts :=
  fun _ mem => numerals _ (List.mem_cons_of_mem _ mem)

/-- A number among decimal numerals denotes what it spells. -/
theorem NumeralsIn.parse {spelling : String} (numerals : NumeralsIn [.number spelling]) {q : ℚ}
    (read : Rational.parse spelling = .ok q) : q = Rational.decimal spelling.toList := by
  have value := (numerals spelling (List.mem_singleton_self _)).parse
  rw [String.ofList_toList, read] at value
  exact Except.ok.inj value

variable {ρ}

mutual

/-- **The polynomial of an expression stands for what the expression denotes**, which is one number
and no other. -/
theorem Sum.standsFor : ∀ (e : Sum) {p : Poly}, NumeralsIn e.yield → e.value = .ok p →
    ∃ v, p.StandsFor ρ v ∧ ∀ w, e.Denotes ρ w ↔ w = v
  | .mk first more, p, numerals, value => by
    obtain ⟨inFirst, inMore⟩ := numerals.append
    obtain ⟨q, here, there⟩ := ok_of_bind value
    obtain ⟨a, stands, means⟩ := first.standsFor inFirst here
    obtain ⟨v, result, goesOn⟩ := more.standsFor inMore stands there
    refine ⟨v, result, fun w => ?_⟩
    simp only [Sum.Denotes, means, exists_eq_left, goesOn]

theorem Addends.standsFor : ∀ (more : Addends) {sum p : Poly} {a : ℝ}, NumeralsIn more.yield →
    sum.StandsFor ρ a → more.value sum = .ok p →
      ∃ v, p.StandsFor ρ v ∧ ∀ w, more.Denotes ρ a w ↔ w = v
  | .nil, sum, p, a, _, stands, value => by
    cases value
    exact ⟨a, stands, fun w => Iff.rfl⟩
  | .plus t more, sum, p, a, numerals, stands, value => by
    obtain ⟨inTerm, inMore⟩ := numerals.tail.append
    obtain ⟨q, here, run⟩ := ok_of_bind value
    obtain ⟨next, step, there⟩ := ok_of_bind run
    obtain ⟨b, standsTerm, means⟩ := t.standsFor inTerm here
    obtain ⟨v, result, goesOn⟩ := more.standsFor inMore (stands.add standsTerm step) there
    refine ⟨v, result, fun w => ?_⟩
    simp only [Addends.Denotes, means, exists_eq_left, goesOn]
  | .minus t more, sum, p, a, numerals, stands, value => by
    obtain ⟨inTerm, inMore⟩ := numerals.tail.append
    obtain ⟨q, here, run⟩ := ok_of_bind value
    obtain ⟨next, step, there⟩ := ok_of_bind run
    obtain ⟨b, standsTerm, means⟩ := t.standsFor inTerm here
    obtain ⟨v, result, goesOn⟩ := more.standsFor inMore (stands.sub standsTerm step) there
    refine ⟨v, result, fun w => ?_⟩
    simp only [Addends.Denotes, means, exists_eq_left, goesOn]

theorem Product.standsFor : ∀ (e : Product) {p : Poly}, NumeralsIn e.yield → e.value = .ok p →
    ∃ v, p.StandsFor ρ v ∧ ∀ w, e.Denotes ρ w ↔ w = v
  | .mk first more, p, numerals, value => by
    obtain ⟨inFirst, inMore⟩ := numerals.append
    obtain ⟨q, here, there⟩ := ok_of_bind value
    obtain ⟨a, stands, means⟩ := first.standsFor inFirst here
    obtain ⟨v, result, goesOn⟩ := more.standsFor inMore stands there
    refine ⟨v, result, fun w => ?_⟩
    simp only [Product.Denotes, means, exists_eq_left, goesOn]

theorem Factors.standsFor : ∀ (more : Factors) {product p : Poly} {a : ℝ}, NumeralsIn more.yield →
    product.StandsFor ρ a → more.value product = .ok p →
      ∃ v, p.StandsFor ρ v ∧ ∀ w, more.Denotes ρ a w ↔ w = v
  | .nil, product, p, a, _, stands, value => by
    cases value
    exact ⟨a, stands, fun w => Iff.rfl⟩
  | .times f more, product, p, a, numerals, stands, value => by
    obtain ⟨inFactor, inMore⟩ := numerals.tail.append
    obtain ⟨q, here, run⟩ := ok_of_bind value
    obtain ⟨next, step, there⟩ := ok_of_bind run
    obtain ⟨b, standsFactor, means⟩ := f.standsFor inFactor here
    obtain ⟨v, result, goesOn⟩ := more.standsFor inMore (stands.mul standsFactor step) there
    refine ⟨v, result, fun w => ?_⟩
    simp only [Factors.Denotes, means, exists_eq_left, goesOn]
  | .dividedBy f more, product, p, a, numerals, stands, value => by
    obtain ⟨inFactor, inMore⟩ := numerals.tail.append
    obtain ⟨q, here, run⟩ := ok_of_bind value
    obtain ⟨next, step, there⟩ := ok_of_bind run
    obtain ⟨b, standsFactor, means⟩ := f.standsFor inFactor here
    obtain ⟨nonzero, quotient⟩ := stands.divide standsFactor step
    obtain ⟨v, result, goesOn⟩ := more.standsFor inMore quotient there
    refine ⟨v, result, fun w => ?_⟩
    simp only [Factors.Denotes, means, exists_eq_left, goesOn, ne_eq, nonzero, not_false_eq_true,
      true_and]
  | .beside f more, product, p, a, numerals, stands, value => by
    obtain ⟨inFactor, inMore⟩ := numerals.append
    obtain ⟨q, here, run⟩ := ok_of_bind value
    obtain ⟨next, step, there⟩ := ok_of_bind run
    obtain ⟨b, standsFactor, means⟩ := f.standsFor inFactor here
    obtain ⟨v, result, goesOn⟩ := more.standsFor inMore (stands.mul standsFactor step) there
    refine ⟨v, result, fun w => ?_⟩
    simp only [Factors.Denotes, means, exists_eq_left, goesOn]

theorem Signed.standsFor : ∀ (f : Signed) {p : Poly}, NumeralsIn f.yield → f.value = .ok p →
    ∃ v, p.StandsFor ρ v ∧ ∀ w, f.Denotes ρ w ↔ w = v
  | .plus f, p, numerals, value => f.standsFor numerals.tail value
  | .minus f, p, numerals, value => by
    obtain ⟨q, here, done⟩ := ok_of_bind value
    cases done
    obtain ⟨a, stands, means⟩ := f.standsFor numerals.tail here
    refine ⟨-a, stands.neg, fun w => ?_⟩
    simp only [Signed.Denotes, means, exists_eq_left]
  | .power e, p, numerals, value => e.standsFor numerals value

theorem Power.standsFor : ∀ (e : Power) {p : Poly}, NumeralsIn e.yield → e.value = .ok p →
    ∃ v, p.StandsFor ρ v ∧ ∀ w, e.Denotes ρ w ↔ w = v
  | .plain base, p, numerals, value => base.standsFor numerals value
  | .raised base e, p, numerals, value => by
    obtain ⟨inBase, inExponent⟩ := numerals.append
    obtain ⟨q, here, run⟩ := ok_of_bind value
    obtain ⟨c, exponent, raised⟩ := ok_of_bind run
    obtain ⟨a, stands, means⟩ := base.standsFor inBase here
    have meansExponent := e.denotes inExponent.tail exponent
    obtain ⟨v, power, result⟩ := stands.raise raised
    refine ⟨v, result, fun w => ?_⟩
    simp only [Power.Denotes, means, meansExponent, Rat.cast_inj, exists_eq_left]
    exact ⟨fun other => other.unique power, fun same => same ▸ power⟩

/-- **The exponent that is computed is the one that is denoted.** -/
theorem Exponent.denotes : ∀ (e : Exponent) {c : ℚ}, NumeralsIn e.yield → e.value = .ok c →
    ∀ w, e.Denotes ρ w ↔ w = c
  | .plain a, c, numerals, value => a.denotes numerals value
  | .plus a, c, numerals, value => a.denotes numerals.tail value
  | .minus a, c, numerals, value => by
    obtain ⟨d, here, done⟩ := ok_of_bind value
    cases done
    intro w
    simp only [Exponent.Denotes, a.denotes numerals.tail here, exists_eq_left, Rat.cast_neg]

theorem Amount.denotes : ∀ (a : Amount) {c : ℚ}, NumeralsIn a.yield → a.value = .ok c →
    ∀ w, a.Denotes ρ w ↔ w = c
  | .number spelling, c, numerals, value => by
    intro w
    rw [numerals.parse value]
    rfl
  | .paren inner, c, numerals, value => by
    obtain ⟨p, here, exponent⟩ := ok_of_bind value
    obtain ⟨a, stands, means⟩ := inner.standsFor numerals.tail.append.1 here
    intro w
    rw [← stands.exponent exponent]
    exact means w

theorem Primary.standsFor : ∀ (e : Primary) {p : Poly}, NumeralsIn e.yield → e.value = .ok p →
    ∃ v, p.StandsFor ρ v ∧ ∀ w, e.Denotes ρ w ↔ w = v
  | .number spelling, p, numerals, value => by
    obtain ⟨q, here, done⟩ := ok_of_bind value
    cases done
    obtain rfl := numerals.parse here
    exact ⟨_, .constant _, fun w => Iff.rfl⟩
  | .letter c, p, _, value => by
    cases value
    exact ⟨_, .letter c, fun w => Iff.rfl⟩
  | .sqrt inner, p, numerals, value => by
    obtain ⟨q, here, raised⟩ := ok_of_bind value
    obtain ⟨a, stands, means⟩ := inner.standsFor numerals.tail.tail.append.1 here
    obtain ⟨v, power, result⟩ := stands.raise raised
    refine ⟨v, result, fun w => ?_⟩
    simp only [Primary.Denotes, means, exists_eq_left]
    exact ⟨fun other => other.unique power, fun same => same ▸ power⟩
  | .paren inner, p, numerals, value => inner.standsFor numerals.tail.append.1 value

end

/-! ## Whole texts -/

/-- **Reading keeps the meaning.** A text that is accepted has one derivation. Whatever
positive numbers its letters stand for, it denotes a real number, that one alone, and the value of the
polynomial is the same number. -/
theorem parse_denotes {text : String} {p : Poly} (accepted : parse text = .ok p) (ρ : Poly.Assignment) :
    ∃ e : Sum, tokens text = .ok e.yield ∧ (∀ e' : Sum, tokens text = .ok e'.yield → e' = e) ∧
      ∀ v, e.Denotes ρ v ↔ v = p.realAt (ρ p.symbol) := by
  obtain ⟨ts, lexed, run⟩ := ok_of_bind accepted
  obtain ⟨e, rfl, value⟩ := exists_of_parseTokens run
  have numerals : NumeralsIn e.yield := fun _ mem => isNumeral_of_lex lexed mem
  obtain ⟨v, stands, means⟩ := e.standsFor numerals value
  refine ⟨e, lexed, ?_, ?_⟩
  · intro e' lexed'
    rw [lexed] at lexed'
    exact Sum.yield_injective (Except.ok.inj lexed').symm
  · rw [stands.eq]
    exact means

/-- A root, a decimal and factors with nothing in between. -/
theorem parse_denotes_root : ∃ p, parse "sqrt(4y) - .5y" = .ok p ∧ p.text = "-1/2*y + 2y^(1/2)" ∧
    ∀ ρ : Poly.Assignment, ∃ e : Sum, tokens "sqrt(4y) - .5y" = .ok e.yield ∧
      ∀ v, e.Denotes ρ v ↔ v = p.realAt (ρ p.symbol) := by
  let product (spelling : String) : Product :=
    .mk (.power (.plain (.number spelling))) (.beside (.plain (.letter 'y')) .nil)
  let root : Primary := .sqrt (.mk (product "4") .nil)
  let e : Sum := .mk (.mk (.power (.plain root)) .nil) (.minus (product ".5") .nil)
  have lexed : (tokens "sqrt(4y) - .5y").toOption = some e.yield := by decide +kernel
  have text : e.value.toOption.map Poly.text = some "-1/2*y + 2y^(1/2)" := by decide +kernel
  cases read : tokens "sqrt(4y) - .5y" with
  | error fault =>
    rw [read] at lexed
    cases lexed
  | ok ts =>
    rw [read] at lexed
    obtain rfl : ts = e.yield := Option.some.inj lexed
    cases value : e.value with
    | error fault =>
      rw [value] at text
      cases text
    | ok p =>
      rw [value] at text
      have accepted : parse "sqrt(4y) - .5y" = .ok p := by
        rw [parse, read, ← value]
        exact parseTokens_yield _ e
      refine ⟨p, accepted, Option.some.inj text, fun ρ => ?_⟩
      obtain ⟨e', lexed', -, means⟩ := parse_denotes accepted ρ
      exact ⟨e', read ▸ lexed', means⟩

end Grammar

end ExactAlgebra
