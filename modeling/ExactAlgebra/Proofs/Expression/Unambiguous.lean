import ExactAlgebra.Proofs.Expression.Grammar

/-!
# The grammar of expressions is unambiguous

Two derivations of one symbol that both begin the same token list are the same derivation, provided
that neither of them could have gone on: what follows a power must not be an exponent, what follows a
product must not be a factor, and what follows a sum must not be a further product. Those are the
conditions of the readers, and the parts of a derivation satisfy them whenever the whole does.

## Main statements

* `Sum.unique`, `Product.unique`, `Signed.unique`, … — one derivation for each symbol;
* `Sum.yield_injective` — a token list has one derivation at most.
-/

namespace ExactAlgebra.Grammar

open Expression

/-- A term does not end at a star or a slash. -/
theorem not_endsTerm_cons {t : Token} {ts : List Token} (other : t = .times ∨ t = .dividedBy) :
    ¬ EndsTerm (t :: ts) := by
  intro ends
  obtain ⟨noTimes, noDivision, -⟩ := ends.endsProduct t rfl
  exact other.elim noTimes noDivision

mutual

/-- **Derivations that begin the same token list are the same**, if nothing goes on with either. -/
theorem Sum.unique : ∀ (a b : Sum) {r s : List Token}, a.yield ++ r = b.yield ++ s →
    (∀ t ∈ r.head?, t = .closing) → (∀ t ∈ s.head?, t = .closing) → a = b ∧ r = s
  | .mk first more, .mk first' more', r, s, same, ends, ends' => by
    rw [Sum.yield, Sum.yield, List.append_assoc, List.append_assoc] at same
    obtain ⟨rfl, further⟩ := first.unique first' same (more.endsTerm ends) (more'.endsTerm ends')
    obtain ⟨rfl, rfl⟩ := more.unique more' further ends ends'
    exact ⟨rfl, rfl⟩

theorem Addends.unique : ∀ (a b : Addends) {r s : List Token}, a.yield ++ r = b.yield ++ s →
    (∀ t ∈ r.head?, t = .closing) → (∀ t ∈ s.head?, t = .closing) → a = b ∧ r = s
  | .nil, .nil, r, s, same, _, _ => ⟨rfl, same⟩
  | .plus p more, .plus p' more', r, s, same, ends, ends' => by
    simp only [Addends.yield, List.cons_append, List.append_assoc, List.cons.injEq, true_and] at same
    obtain ⟨rfl, further⟩ := p.unique p' same (more.endsTerm ends) (more'.endsTerm ends')
    obtain ⟨rfl, rfl⟩ := more.unique more' further ends ends'
    exact ⟨rfl, rfl⟩
  | .minus p more, .minus p' more', r, s, same, ends, ends' => by
    simp only [Addends.yield, List.cons_append, List.append_assoc, List.cons.injEq, true_and] at same
    obtain ⟨rfl, further⟩ := p.unique p' same (more.endsTerm ends) (more'.endsTerm ends')
    obtain ⟨rfl, rfl⟩ := more.unique more' further ends ends'
    exact ⟨rfl, rfl⟩
  | .nil, .plus p more, r, s, same, ends, _ => by
    obtain rfl : r = _ := same
    cases ends _ rfl
  | .nil, .minus p more, r, s, same, ends, _ => by
    obtain rfl : r = _ := same
    cases ends _ rfl
  | .plus p more, .nil, r, s, same, _, ends => by
    obtain rfl : _ = s := same
    cases ends _ rfl
  | .minus p more, .nil, r, s, same, _, ends => by
    obtain rfl : _ = s := same
    cases ends _ rfl
  | .plus .., .minus .., r, s, same, _, _ => by cases (List.cons.inj same).1
  | .minus .., .plus .., r, s, same, _, _ => by cases (List.cons.inj same).1

theorem Product.unique : ∀ (a b : Product) {r s : List Token}, a.yield ++ r = b.yield ++ s →
    EndsTerm r → EndsTerm s → a = b ∧ r = s
  | .mk first more, .mk first' more', r, s, same, ends, ends' => by
    rw [Product.yield, Product.yield, List.append_assoc, List.append_assoc] at same
    obtain ⟨rfl, further⟩ := first.unique first' same (more.noCaret ends.noCaret)
      (more'.noCaret ends'.noCaret)
    obtain ⟨rfl, rfl⟩ := more.unique more' further ends ends'
    exact ⟨rfl, rfl⟩

theorem Factors.unique : ∀ (a b : Factors) {r s : List Token}, a.yield ++ r = b.yield ++ s →
    EndsTerm r → EndsTerm s → a = b ∧ r = s
  | .nil, .nil, r, s, same, _, _ => ⟨rfl, same⟩
  | .times f more, .times f' more', r, s, same, ends, ends' => by
    simp only [Factors.yield, List.cons_append, List.append_assoc, List.cons.injEq, true_and] at same
    obtain ⟨rfl, further⟩ := f.unique f' same (more.noCaret ends.noCaret) (more'.noCaret ends'.noCaret)
    obtain ⟨rfl, rfl⟩ := more.unique more' further ends ends'
    exact ⟨rfl, rfl⟩
  | .dividedBy f more, .dividedBy f' more', r, s, same, ends, ends' => by
    simp only [Factors.yield, List.cons_append, List.append_assoc, List.cons.injEq, true_and] at same
    obtain ⟨rfl, further⟩ := f.unique f' same (more.noCaret ends.noCaret) (more'.noCaret ends'.noCaret)
    obtain ⟨rfl, rfl⟩ := more.unique more' further ends ends'
    exact ⟨rfl, rfl⟩
  | .beside p more, .beside p' more', r, s, same, ends, ends' => by
    rw [Factors.yield, Factors.yield, List.append_assoc, List.append_assoc] at same
    obtain ⟨rfl, further⟩ := p.unique p' same (more.noCaret ends.noCaret) (more'.noCaret ends'.noCaret)
    obtain ⟨rfl, rfl⟩ := more.unique more' further ends ends'
    exact ⟨rfl, rfl⟩
  | .nil, .times .., r, s, same, ends, _ => by
    obtain rfl : r = _ := same
    exact absurd ends (not_endsTerm_cons (.inl rfl))
  | .nil, .dividedBy .., r, s, same, ends, _ => by
    obtain rfl : r = _ := same
    exact absurd ends (not_endsTerm_cons (.inr rfl))
  | .nil, .beside p more, r, s, same, ends, _ => by
    obtain rfl : r = _ := same
    rw [Factors.yield, List.append_assoc] at ends
    exact absurd ends.endsProduct (p.beginsFactor.append _).not_endsProduct
  | .times .., .nil, r, s, same, _, ends => by
    obtain rfl : _ = s := same
    exact absurd ends (not_endsTerm_cons (.inl rfl))
  | .dividedBy .., .nil, r, s, same, _, ends => by
    obtain rfl : _ = s := same
    exact absurd ends (not_endsTerm_cons (.inr rfl))
  | .beside p more, .nil, r, s, same, _, ends => by
    obtain rfl : _ = s := same
    rw [Factors.yield, List.append_assoc] at ends
    exact absurd ends.endsProduct (p.beginsFactor.append _).not_endsProduct
  | .times .., .dividedBy .., r, s, same, _, _ => by cases (List.cons.inj same).1
  | .dividedBy .., .times .., r, s, same, _, _ => by cases (List.cons.inj same).1
  | .times .., .beside p more, r, s, same, _, _ => by
    rw [Factors.yield, Factors.yield, List.append_assoc] at same
    exact absurd same.symm ((p.beginsFactor.append _).ne_cons rfl _)
  | .dividedBy .., .beside p more, r, s, same, _, _ => by
    rw [Factors.yield, Factors.yield, List.append_assoc] at same
    exact absurd same.symm ((p.beginsFactor.append _).ne_cons rfl _)
  | .beside p more, .times .., r, s, same, _, _ => by
    rw [Factors.yield, Factors.yield, List.append_assoc] at same
    exact absurd same ((p.beginsFactor.append _).ne_cons rfl _)
  | .beside p more, .dividedBy .., r, s, same, _, _ => by
    rw [Factors.yield, Factors.yield, List.append_assoc] at same
    exact absurd same ((p.beginsFactor.append _).ne_cons rfl _)

theorem Signed.unique : ∀ (a b : Signed) {r s : List Token}, a.yield ++ r = b.yield ++ s →
    NoCaret r → NoCaret s → a = b ∧ r = s
  | .plus f, .plus f', r, s, same, plain, plain' => by
    obtain ⟨rfl, rfl⟩ := f.unique f' (List.cons.inj same).2 plain plain'
    exact ⟨rfl, rfl⟩
  | .minus f, .minus f', r, s, same, plain, plain' => by
    obtain ⟨rfl, rfl⟩ := f.unique f' (List.cons.inj same).2 plain plain'
    exact ⟨rfl, rfl⟩
  | .power p, .power p', r, s, same, plain, plain' => by
    obtain ⟨rfl, rfl⟩ := p.unique p' same plain plain'
    exact ⟨rfl, rfl⟩
  | .plus _, .minus _, r, s, same, _, _ => by cases (List.cons.inj same).1
  | .minus _, .plus _, r, s, same, _, _ => by cases (List.cons.inj same).1
  | .plus _, .power p, r, s, same, _, _ => absurd same.symm ((p.beginsFactor.append _).ne_cons rfl _)
  | .minus _, .power p, r, s, same, _, _ => absurd same.symm ((p.beginsFactor.append _).ne_cons rfl _)
  | .power p, .plus _, r, s, same, _, _ => absurd same ((p.beginsFactor.append _).ne_cons rfl _)
  | .power p, .minus _, r, s, same, _, _ => absurd same ((p.beginsFactor.append _).ne_cons rfl _)

theorem Power.unique : ∀ (a b : Power) {r s : List Token}, a.yield ++ r = b.yield ++ s →
    NoCaret r → NoCaret s → a = b ∧ r = s
  | .plain base, .plain base', r, s, same, _, _ => by
    obtain ⟨rfl, rfl⟩ := base.unique base' same
    exact ⟨rfl, rfl⟩
  | .raised base e, .raised base' e', r, s, same, _, _ => by
    rw [Power.yield, Power.yield, List.append_assoc, List.append_assoc] at same
    obtain ⟨rfl, further⟩ := base.unique base' same
    obtain ⟨rfl, rfl⟩ := e.unique e' (List.cons.inj further).2
    exact ⟨rfl, rfl⟩
  | .plain base, .raised base' e, r, s, same, plain, _ => by
    rw [Power.yield, Power.yield, List.append_assoc] at same
    obtain ⟨rfl, rfl⟩ := base.unique base' same
    exact absurd rfl plain
  | .raised base e, .plain base', r, s, same, _, plain => by
    rw [Power.yield, Power.yield, List.append_assoc] at same
    obtain ⟨rfl, rfl⟩ := base.unique base' same
    exact absurd rfl plain

theorem Exponent.unique : ∀ (a b : Exponent) {r s : List Token}, a.yield ++ r = b.yield ++ s →
    a = b ∧ r = s
  | .plain a, .plain a', r, s, same => by
    obtain ⟨rfl, rfl⟩ := a.unique a' same
    exact ⟨rfl, rfl⟩
  | .plus a, .plus a', r, s, same => by
    obtain ⟨rfl, rfl⟩ := a.unique a' (List.cons.inj same).2
    exact ⟨rfl, rfl⟩
  | .minus a, .minus a', r, s, same => by
    obtain ⟨rfl, rfl⟩ := a.unique a' (List.cons.inj same).2
    exact ⟨rfl, rfl⟩
  | .plus _, .minus _, r, s, same => by cases (List.cons.inj same).1
  | .minus _, .plus _, r, s, same => by cases (List.cons.inj same).1
  | .plain a, .plus _, r, s, same => absurd same ((a.beginsFactor.append _).ne_cons rfl _)
  | .plain a, .minus _, r, s, same => absurd same ((a.beginsFactor.append _).ne_cons rfl _)
  | .plus _, .plain a, r, s, same => absurd same.symm ((a.beginsFactor.append _).ne_cons rfl _)
  | .minus _, .plain a, r, s, same => absurd same.symm ((a.beginsFactor.append _).ne_cons rfl _)

theorem Amount.unique : ∀ (a b : Amount) {r s : List Token}, a.yield ++ r = b.yield ++ s →
    a = b ∧ r = s
  | .number _, .number _, r, s, same => by
    cases same
    exact ⟨rfl, rfl⟩
  | .paren inner, .paren inner', r, s, same => by
    simp only [Amount.yield, List.cons_append, List.append_assoc, List.cons.injEq, true_and] at same
    obtain ⟨rfl, further⟩ := inner.unique inner' same (by simp) (by simp)
    exact ⟨rfl, (List.cons.inj further).2⟩
  | .number _, .paren _, r, s, same => by cases (List.cons.inj same).1
  | .paren _, .number _, r, s, same => by cases (List.cons.inj same).1

theorem Primary.unique : ∀ (a b : Primary) {r s : List Token}, a.yield ++ r = b.yield ++ s →
    a = b ∧ r = s
  | .number _, .number _, r, s, same => by
    cases same
    exact ⟨rfl, rfl⟩
  | .letter _, .letter _, r, s, same => by
    cases same
    exact ⟨rfl, rfl⟩
  | .sqrt inner, .sqrt inner', r, s, same => by
    simp only [Primary.yield, List.cons_append, List.append_assoc, List.cons.injEq, true_and] at same
    obtain ⟨rfl, further⟩ := inner.unique inner' same (by simp) (by simp)
    exact ⟨rfl, (List.cons.inj further).2⟩
  | .paren inner, .paren inner', r, s, same => by
    simp only [Primary.yield, List.cons_append, List.append_assoc, List.cons.injEq, true_and] at same
    obtain ⟨rfl, further⟩ := inner.unique inner' same (by simp) (by simp)
    exact ⟨rfl, (List.cons.inj further).2⟩
  | .number _, .letter _, r, s, same => by cases (List.cons.inj same).1
  | .number _, .sqrt _, r, s, same => by cases (List.cons.inj same).1
  | .number _, .paren _, r, s, same => by cases (List.cons.inj same).1
  | .letter _, .number _, r, s, same => by cases (List.cons.inj same).1
  | .letter _, .sqrt _, r, s, same => by cases (List.cons.inj same).1
  | .letter _, .paren _, r, s, same => by cases (List.cons.inj same).1
  | .sqrt _, .number _, r, s, same => by cases (List.cons.inj same).1
  | .sqrt _, .letter _, r, s, same => by cases (List.cons.inj same).1
  | .sqrt _, .paren _, r, s, same => by cases (List.cons.inj same).1
  | .paren _, .number _, r, s, same => by cases (List.cons.inj same).1
  | .paren _, .letter _, r, s, same => by cases (List.cons.inj same).1
  | .paren _, .sqrt _, r, s, same => by cases (List.cons.inj same).1

end

/-- **A token list has one derivation at most.** -/
theorem Sum.yield_injective : Function.Injective Sum.yield := by
  intro a b same
  have whole : a.yield ++ [] = b.yield ++ [] := by rw [same]
  exact (a.unique b whole (by simp) (by simp)).1

end ExactAlgebra.Grammar
