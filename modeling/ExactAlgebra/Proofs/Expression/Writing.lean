import ExactAlgebra.Proofs.Expression.Derivation
import ExactAlgebra.Proofs.Poly.Single
import ExactAlgebra.Proofs.Poly.Text
import Mathlib.Data.Rat.Cast.Order

/-!
# What is written is read back

The text of a polynomial has a derivation that follows the cases of the text. Its yield are the
tokens of the text, and its value is the polynomial: every number, root and power on the way is
exactly the one that was written, and the terms come in order, so that none of the sums has to
collect anything.

## Main statements

* `Rational.value_tree`, `Radical.value_tree`, `Term.value_tree` — the values of the parts;
* `Poly.value_tree` — the value of the whole, up to the name of the variable of a constant;
* `Poly.parse_text_same` — the text of a polynomial is read back.

## Main definitions

* `Rational.tree`, `Radical.tree`, `Term.tree`, `Poly.tree` — the derivations.
-/

namespace ExactAlgebra

open Text Expression

/-! ## Products that go on -/

namespace Grammar

/-- Further factors, and still further ones. -/
def Factors.append : Factors → Factors → Factors
  | .nil, more => more
  | .times f rest, more => .times f (rest.append more)
  | .dividedBy f rest, more => .dividedBy f (rest.append more)
  | .beside p rest, more => .beside p (rest.append more)

/-- A product with further factors. -/
def Product.append : Product → Factors → Product
  | .mk first rest, more => .mk first (rest.append more)

theorem Factors.yield_append : ∀ rest more : Factors,
    (rest.append more).yield = rest.yield ++ more.yield
  | .nil, more => rfl
  | .times f rest, more => by
    simp [Factors.append, Factors.yield, rest.yield_append more]
  | .dividedBy f rest, more => by
    simp [Factors.append, Factors.yield, rest.yield_append more]
  | .beside p rest, more => by
    simp [Factors.append, Factors.yield, rest.yield_append more]

theorem Factors.value_append : ∀ (rest more : Factors) (p : Poly),
    (rest.append more).value p = rest.value p >>= more.value
  | .nil, more, p => rfl
  | .times f rest, more, p => by
    simp only [Factors.append, Factors.value, bind_assoc, rest.value_append more]
  | .dividedBy f rest, more, p => by
    simp only [Factors.append, Factors.value, bind_assoc, rest.value_append more]
  | .beside q rest, more, p => by
    simp only [Factors.append, Factors.value, bind_assoc, rest.value_append more]

theorem Product.yield_append (e : Product) (more : Factors) :
    (e.append more).yield = e.yield ++ more.yield := by
  obtain ⟨first, rest⟩ := e
  rw [Product.append, Product.yield, Product.yield, rest.yield_append, List.append_assoc]

theorem Product.value_append (e : Product) (more : Factors) :
    (e.append more).value = e.value >>= more.value := by
  obtain ⟨first, rest⟩ := e
  simp only [Product.append, Product.value, bind_assoc, rest.value_append]

/-- A product as a sum of one term. -/
def Product.sum (e : Product) : Sum :=
  .mk e .nil

theorem Product.yield_sum (e : Product) : e.sum.yield = e.yield := by
  rw [Product.sum, Sum.yield, Addends.yield, List.append_nil]

theorem Product.value_sum (e : Product) : e.sum.value = e.value := by
  rw [Product.sum, Sum.value]
  exact bind_pure _

/-- A factor as a product. -/
def Signed.product (f : Signed) : Product :=
  .mk f .nil

theorem Signed.yield_product (f : Signed) : f.product.yield = f.yield := by
  rw [Signed.product, Product.yield, Factors.yield, List.append_nil]

theorem Signed.value_product (f : Signed) : f.product.value = f.value := by
  rw [Signed.product, Product.value]
  exact bind_pure _

/-- A numeral as a factor. -/
def numeral (n : Nat) : Signed :=
  .power (.plain (.number (natText n)))

theorem value_numeral (n : Nat) : (numeral n).value = .ok (.constant (.ofRat n) "") := by
  rw [numeral, Signed.value, Power.value, Primary.value, Rational.parse_natText]
  rfl

end Grammar

open Grammar

/-! ## Rationals -/

namespace Rational

/-- **The derivation of a rational**: the sign belongs to the numerator, and the denominator divides
what has been read by then. -/
def tree (q : ℚ) : Product :=
  .mk (if q < 0 then .minus (numeral q.num.natAbs) else numeral q.num.natAbs)
    (if q.den = 1 then .nil else .dividedBy (numeral q.den) .nil)

theorem yield_tree (q : ℚ) : (tree q).yield = tokens q := by
  rw [tree, tokens, Product.yield]
  split <;> split <;> rfl

theorem value_numerator (q : ℚ) :
    Signed.value (if q < 0 then .minus (numeral q.num.natAbs) else numeral q.num.natAbs) =
      .ok (.constant (.ofRat q.num) "") := by
  split
  · rename_i negative
    have opposite : (q.num : ℚ) = -(q.num.natAbs : ℚ) := by
      rw [Nat.cast_natAbs, abs_of_neg (Rat.num_neg.mpr negative), Int.cast_neg, neg_neg]
    rw [Signed.value, value_numeral, opposite, ← Radical.neg_ofRat]
    exact congrArg Except.ok (Poly.neg_ofTerm 0 "")
  · rename_i nonneg
    have same : (q.num : ℚ) = (q.num.natAbs : ℚ) := by
      rw [Nat.cast_natAbs, abs_of_nonneg (Rat.num_nonneg.mpr (not_lt.mp nonneg))]
    rw [value_numeral, same]

theorem value_tree {q : ℚ} (nonzero : q ≠ 0) : (tree q).value = .ok (.constant (.ofRat q) "") := by
  rw [tree, Product.value, value_numerator]
  show Factors.value _ _ = _
  split
  · rename_i one
    rw [Factors.value, (Rat.den_eq_one_iff q).mp one]
  · have num : (q.num : ℚ) ≠ 0 := Int.cast_ne_zero.mpr (Rat.num_ne_zero.mpr nonzero)
    have den : (q.den : ℚ) ≠ 0 := Nat.cast_ne_zero.mpr q.den_nz
    rw [Factors.value, value_numeral]
    show Poly.divide _ _ >>= _ = _
    rw [Poly.divide_constant num den, Rat.num_div_den]
    rfl

end Rational

/-! ## Radicals -/

namespace Radical

/-- The derivation of the square root of a natural number. -/
def rootTree (m : Nat) : Power :=
  .plain (.sqrt (numeral m).product.sum)

theorem yield_rootTree (m : Nat) : (rootTree m).yield = rootTokens m := by
  rw [rootTree, Power.yield, Primary.yield, Product.yield_sum, Signed.yield_product]
  rfl

theorem value_rootTree {m : Nat} (free : SquareFree m) (le : m ≤ Rational.factorLimit) :
    (rootTree m).value = .ok (.constant (.ofParts 1 m free) "") := by
  rw [rootTree, Power.value, Primary.value, Product.value_sum, Signed.value_product, value_numeral]
  exact Poly.raise_constant_half free le

/-- **The derivation of a radical.** -/
def tree (a : Radical) : Product :=
  if a.radicand = 1 then Rational.tree a.coefficient
  else if a.coefficient = 1 then (Signed.power (rootTree a.radicand)).product
  else if a.coefficient = -1 then (Signed.minus (.power (rootTree a.radicand))).product
  else (Rational.tree a.coefficient).append (.times (.power (rootTree a.radicand)) .nil)

theorem yield_tree (a : Radical) : a.tree.yield = a.tokens := by
  rw [tree, tokens]
  split
  · exact Rational.yield_tree _
  · split
    · rw [Signed.yield_product, Signed.yield, yield_rootTree]
    · split
      · rw [Signed.yield_product, Signed.yield, Signed.yield, yield_rootTree]
      · rw [Product.yield_append, Rational.yield_tree, Factors.yield, Factors.yield, Signed.yield,
          yield_rootTree, List.append_nil]

theorem value_tree {a : Radical} (made : a.IsMade) (nonzero : a.coefficient ≠ 0) :
    a.tree.value = .ok (.constant a "") := by
  have root := value_rootTree a.squareFree (a.isMade_iff.mp made)
  have self := a.ofParts_self
  rw [tree]
  split
  · rename_i rational
    have same := eq_ofRat (a := a) (decide_eq_true rational)
    rw [Rational.value_tree nonzero, ← same]
  · split
    · rename_i one
      rw [one] at self
      rw [Signed.value_product, Signed.value, root, self]
    · split
      · rename_i one
        rw [one, ← neg_ofParts] at self
        rw [Signed.value_product, Signed.value, Signed.value, root]
        refine congrArg Except.ok ((Poly.neg_ofTerm 0 "").trans ?_)
        rw [self]
        rfl
      · have multiplied := ofRat_mul_root a.coefficient a.squareFree (a.isMade_iff.mp made)
        rw [self] at multiplied
        have left : (ofRat a.coefficient).coefficient ≠ 0 := nonzero
        have right : (ofParts 1 a.radicand a.squareFree).coefficient ≠ 0 := by simp
        have product := Poly.mul_ofTerm 0 0 "" left right multiplied nonzero
        rw [add_zero] at product
        rw [Product.value_append, Rational.value_tree nonzero]
        show Factors.value _ _ = _
        rw [Factors.value, Signed.value, root]
        show Poly.mul _ _ >>= _ = _
        rw [Poly.constant, Poly.constant, product]
        rfl

end Radical

/-! ## Terms -/

/-- The derivation of an exponent. -/
def exponentTree (e : ℚ) : Exponent :=
  if Poly.isNaturalPower e then .plain (.number (natText e.num.natAbs))
  else .plain (.paren (Rational.tree e).sum)

theorem yield_exponentTree (e : ℚ) : (exponentTree e).yield =
    if Poly.isNaturalPower e then Rational.tokens e
    else .opening :: (Rational.tokens e ++ [.closing]) := by
  rw [exponentTree]
  split
  · rename_i natural
    obtain ⟨nonneg, whole⟩ : 0 ≤ e ∧ e.den = 1 := by simpa [Poly.isNaturalPower] using natural
    rw [Rational.tokens, if_neg (not_lt.mpr nonneg), if_pos whole]
    rfl
  · rw [Exponent.yield, Amount.yield, Product.yield_sum, Rational.yield_tree]

theorem value_exponentTree (e : ℚ) : (exponentTree e).value = .ok e := by
  rw [exponentTree]
  split
  · rename_i natural
    obtain ⟨nonneg, whole⟩ : 0 ≤ e ∧ e.den = 1 := by simpa [Poly.isNaturalPower] using natural
    have same : (e.num.natAbs : ℚ) = e := by
      rw [Nat.cast_natAbs, abs_of_nonneg (Rat.num_nonneg.mpr nonneg)]
      exact (Rat.den_eq_one_iff e).mp whole
    rw [Exponent.value, Amount.value, Rational.parse_natText, same]
  · rename_i other
    have nonzero : e ≠ 0 := by
      rintro rfl
      exact other rfl
    have terms : (Poly.constant (.ofRat e) "").terms = [⟨.ofRat e, 0⟩] :=
      Poly.terms_ofTerm nonzero ""
    have constant : (Poly.constant (.ofRat e) "").isConstant = true := by
      rw [Poly.isConstant, terms]
      rfl
    have leading : (Poly.constant (.ofRat e) "").leadingCoefficient = .ofRat e := by
      rw [Poly.leadingCoefficient, terms]
      rfl
    rw [Exponent.value, Amount.value, Product.value_sum, Rational.value_tree nonzero]
    show exponentValue _ = _
    rw [exponentValue, constant, leading]
    rfl

/-- The derivation of a power of the variable. -/
def variableTree (x : Char) (e : ℚ) : Power :=
  if e = 1 then .plain (.letter x) else .raised (.letter x) (exponentTree e)

theorem yield_variableTree (x : Char) (e : ℚ) : (variableTree x e).yield = variableTokens x e := by
  rw [variableTree, variableTokens]
  split
  · rfl
  · rw [Power.yield, yield_exponentTree]
    rfl

theorem value_variableTree (x : Char) (e : ℚ) :
    (variableTree x e).value = .ok (.power (String.singleton x) e) := by
  rw [variableTree]
  split
  · rename_i one
    rw [one]
    rfl
  · rw [Power.value, value_exponentTree]
    exact Poly.raise_power _ e

namespace Term

/-- **The derivation of a term** in the variable `x`. -/
def tree (t : Term) (x : Char) : Product :=
  if t.coefficient.isZero then (numeral 0).product
  else if t.power = 0 then t.coefficient.tree
  else if t.coefficient = .ofRat 1 then (Signed.power (variableTree x t.power)).product
  else if t.coefficient = .ofRat (-1) then (Signed.minus (.power (variableTree x t.power))).product
  else if t.coefficient.isRational && t.coefficient.coefficient.den = 1 then
    t.coefficient.tree.append (.beside (variableTree x t.power) .nil)
  else t.coefficient.tree.append (.times (.power (variableTree x t.power)) .nil)

theorem yield_tree (t : Term) (x : Char) : (t.tree x).yield = t.tokens x := by
  rw [tree, tokens]
  split
  · rw [Signed.yield_product]
    rfl
  split
  · exact Radical.yield_tree _
  split
  · rw [Signed.yield_product, Signed.yield, yield_variableTree]
  split
  · rw [Signed.yield_product, Signed.yield, Signed.yield, yield_variableTree]
  split
  · rw [Product.yield_append, Radical.yield_tree, Factors.yield, Factors.yield, yield_variableTree,
      List.append_nil]
  · rw [Product.yield_append, Radical.yield_tree, Factors.yield, Factors.yield, Signed.yield,
      yield_variableTree, List.append_nil]

/-- The name of the variable, which a constant does not mention. -/
def name (t : Term) (x : Char) : String :=
  if t.power = 0 then "" else String.singleton x

/-- **The value of a term.** -/
theorem value_tree {t : Term} (made : t.coefficient.IsMade) (nonzero : t.coefficient.coefficient ≠ 0)
    (x : Char) : (t.tree x).value = .ok (.ofTerm t (t.name x)) := by
  obtain ⟨a, e⟩ := t
  have some : a.isZero = false := decide_eq_false nonzero
  have power := value_variableTree x e
  rw [Poly.power] at power
  have product : (Poly.ofTerm ⟨a, 0⟩ "").mul (.ofTerm ⟨.ofRat 1, e⟩ (String.singleton x)) =
      .ok (.ofTerm ⟨a, e⟩ (String.singleton x)) := by
    have multiplied := Poly.mul_ofTerm 0 e (String.singleton x) nonzero one_ne_zero
      made.mul_ofRat_one nonzero
    rwa [zero_add] at multiplied
  rw [tree, some, if_neg Bool.false_ne_true, name]
  dsimp only
  split
  · rename_i constant
    rw [constant]
    exact Radical.value_tree made nonzero
  split
  · rename_i one
    rw [one, Signed.value_product, Signed.value, power]
  split
  · rename_i one
    rw [one, Signed.value_product, Signed.value, Signed.value, power]
    refine congrArg Except.ok ((Poly.neg_ofTerm e _).trans ?_)
    rw [Radical.neg_ofRat]
  split
  · rw [Product.value_append, Radical.value_tree made nonzero]
    show Factors.value _ _ = _
    rw [Factors.value, power]
    show Poly.mul _ _ >>= _ = _
    rw [Poly.constant, product]
    rfl
  · rw [Product.value_append, Radical.value_tree made nonzero]
    show Factors.value _ _ = _
    rw [Factors.value, Signed.value, power]
    show Poly.mul _ _ >>= _ = _
    rw [Poly.constant, product]
    rfl

end Term

/-! ## Sums -/

namespace Poly

/-- The derivations of the terms that follow others. -/
def followingTree (x : Char) : List Term → Addends
  | [] => .nil
  | t :: rest =>
    if t.coefficient.isNegative then
      .minus (Term.tree ⟨t.coefficient.neg, t.power⟩ x) (followingTree x rest)
    else .plus (t.tree x) (followingTree x rest)

/-- **The derivation of a polynomial** in the variable `x`. -/
def tree (p : Poly) (x : Char) : Grammar.Sum :=
  match p.terms with
  | [] => (numeral 0).product.sum
  | t :: rest => .mk (t.tree x) (followingTree x rest)

theorem yield_followingTree (x : Char) (ts : List Term) :
    (followingTree x ts).yield = ts.flatMap (followingTokens x) := by
  induction ts with
  | nil => rfl
  | cons t rest ih =>
    rw [followingTree, List.flatMap_cons, followingTokens]
    split
    · rw [Addends.yield, Term.yield_tree, ih]
      rfl
    · rw [Addends.yield, Term.yield_tree, ih]
      rfl

theorem yield_tree (p : Poly) (x : Char) : (p.tree x).yield = p.tokens x := by
  rw [tree, tokens]
  cases p.terms with
  | nil => rw [Product.yield_sum, Signed.yield_product]; rfl
  | cons t rest => rw [Sum.yield, Term.yield_tree, yield_followingTree]

/-- **A polynomial in the variable `x`**, or a constant that does not mention it. -/
def IsIn (p : Poly) (x : Char) : Prop :=
  p.symbol = String.singleton x ∨ p.symbol = "" ∧ ∀ t ∈ p.terms, t.power = 0

variable {p : Poly} {x : Char}

theorem isIn_ofTerm {t : Term} (nonzero : t.coefficient.coefficient ≠ 0) (x : Char) :
    (ofTerm t (t.name x)).IsIn x := by
  have terms := terms_ofTerm nonzero (t.name x)
  by_cases constant : t.power = 0
  · have none : (ofTerm t (t.name x)).symbol = "" := if_pos constant
    exact .inr ⟨none, by simpa [terms] using constant⟩
  · have name : (ofTerm t (t.name x)).symbol = String.singleton x := if_neg constant
    exact .inl name

/-- **The next term** goes to the end of the sum. -/
theorem add_term (named : p.IsIn x) {t : Term} (nonzero : t.coefficient.coefficient ≠ 0)
    (lower : ∀ s ∈ p.terms, t.power < s.power) :
    ∃ r, p.add (ofTerm t (t.name x)) = .ok r ∧ r.terms = p.terms ++ [t] ∧ r.IsIn x := by
  have terms := terms_ofTerm nonzero (t.name x)
  rcases named with name | ⟨none, constants⟩
  · have compatible : p.symbol = "" ∨ (ofTerm t (t.name x)).symbol = "" ∨
        p.symbol = (ofTerm t (t.name x)).symbol := by
      rcases isIn_ofTerm nonzero x with name' | ⟨none, -⟩
      · exact .inr (.inr (name.trans name'.symm))
      · exact .inr (.inl none)
    obtain ⟨r, added, all, symbol⟩ := add_lower terms lower compatible
    refine ⟨r, added, all, .inl ?_⟩
    rw [symbol, name, if_neg (singleton_ne_empty x)]
  · obtain ⟨r, added, all, symbol⟩ := add_lower terms lower (.inl none)
    rw [if_pos none] at symbol
    refine ⟨r, added, all, (isIn_ofTerm nonzero x).imp symbol.trans ?_⟩
    rintro ⟨none', constant⟩
    refine ⟨symbol.trans none', ?_⟩
    rw [terms] at constant
    rw [all]
    exact List.forall_mem_append.mpr ⟨constants, constant⟩

/-- **The terms that follow are added one after the other.** -/
theorem value_followingTree {ts : List Term} (named : p.IsIn x)
    (descending : (p.terms ++ ts).Pairwise fun s t => t.power < s.power)
    (made : ∀ t ∈ ts, t.coefficient.IsMade) (nonzero : ∀ t ∈ ts, t.coefficient.coefficient ≠ 0) :
    ∃ q, (followingTree x ts).value p = .ok q ∧ q.terms = p.terms ++ ts ∧ q.IsIn x := by
  induction ts generalizing p with
  | nil => exact ⟨p, rfl, (List.append_nil _).symm, named⟩
  | cons t rest ih =>
    obtain ⟨made, mades⟩ := List.forall_mem_cons.mp made
    obtain ⟨nonzero, nonzeros⟩ := List.forall_mem_cons.mp nonzero
    have lower : ∀ s ∈ p.terms, t.power < s.power := fun s mem =>
      (List.pairwise_append.mp descending).2.2 s mem t List.mem_cons_self
    obtain ⟨r, added, all, named⟩ := add_term named nonzero lower
    rw [List.append_cons, ← all] at descending
    obtain ⟨q, further, total, named⟩ := ih named descending mades nonzeros
    refine ⟨q, ?_, by rw [total, all, List.append_assoc, List.singleton_append], named⟩
    rw [followingTree]
    split
    · -- subtracting the opposite adds the term
      have opposite : (⟨t.coefficient.neg, t.power⟩ : Term).coefficient.coefficient ≠ 0 := by
        simpa using nonzero
      have back : (ofTerm ⟨t.coefficient.neg, t.power⟩ (t.name x)).neg = ofTerm t (t.name x) := by
        rw [neg_ofTerm, Radical.neg_neg_self]
      rw [Addends.value, Term.value_tree made.neg opposite]
      show p.add (ofTerm ⟨t.coefficient.neg, t.power⟩ (t.name x)).neg >>= _ = _
      rw [back, added]
      exact further
    · rw [Addends.value, Term.value_tree made nonzero]
      show p.add _ >>= _ = _
      rw [added]
      exact further

/-- **The value of the derivation of a polynomial** has the terms of the polynomial. -/
theorem value_tree (made : ∀ t ∈ p.terms, t.coefficient.IsMade) (x : Char) :
    ∃ q, (p.tree x).value = .ok q ∧ q.terms = p.terms ∧ q.IsIn x := by
  have descending := p.descending
  have nonzero := p.nonzero
  rw [tree]
  cases terms : p.terms with
  | nil =>
    refine ⟨constant (.ofRat 0) "", ?_, rfl, .inr ⟨rfl, by simp [constant, ofTerm, ofSums]⟩⟩
    rw [Product.value_sum, Signed.value_product, value_numeral, Nat.cast_zero]
  | cons t rest =>
    rw [terms] at made descending nonzero
    obtain ⟨made, mades⟩ := List.forall_mem_cons.mp made
    obtain ⟨nonzero, nonzeros⟩ := List.forall_mem_cons.mp nonzero
    have first := terms_ofTerm nonzero (t.name x)
    obtain ⟨q, further, total, named⟩ := value_followingTree (isIn_ofTerm nonzero x)
      (by rwa [first]) mades nonzeros
    refine ⟨q, ?_, by rw [total, first]; rfl, named⟩
    rw [Sum.value, Term.value_tree made nonzero]
    exact further

/-- Polynomials with the same terms are the same if both are in one variable. -/
theorem same_of_isIn {q : Poly} (terms : q.terms = p.terms) (named : q.IsIn x)
    (name : p.isConstant = true ∨ p.symbol = String.singleton x) : q.same p = true := by
  have constant : q.isConstant = p.isConstant := by rw [isConstant, isConstant, terms]
  rw [same, terms]
  simp only [decide_true, Bool.true_and, Bool.or_eq_true, decide_eq_true_eq]
  rcases named with symbol | ⟨-, powers⟩
  · rw [constant]
    exact name.imp_right fun here => symbol.trans here.symm
  · exact .inl (q.isConstant_iff.mpr powers)

end Poly

end ExactAlgebra
