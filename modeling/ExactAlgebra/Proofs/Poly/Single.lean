import ExactAlgebra.Proofs.Radical.Simplest
import ExactAlgebra.Poly.Power
import Mathlib.Algebra.BigOperators.Ring.List

/-!
# Single terms and descending sums

A text is read term by term, from the highest power down. So what has been read so far is a sum with
descending powers, and the next term goes to its end; the term itself is a product of single terms.
None of that depends on the powers being natural.

## Main statements

* `ofTerms_descending` — terms that are in order already stay as they are;
* `add_lower` — a term of lower power goes to the end;
* `neg_ofTerm`, `mul_ofTerm`, `divide_constant`, `raise_power` — arithmetic of single terms.
-/

namespace ExactAlgebra

/-! ## Terms in order -/

/-- A term below all others comes first. -/
theorem insertTerm_lower {t : Term} {sums : List Term} (lower : ∀ s ∈ sums, t.power < s.power) :
    insertTerm t sums = .ok (t :: sums) := by
  cases sums with
  | nil => rfl
  | cons s rest =>
    rw [insertTerm, if_pos (lower s List.mem_cons_self)]

/-- **Terms with descending powers are collected one in front of the other.** -/
theorem collect_descending {ts : List Term} (descending : ts.Pairwise fun s t => t.power < s.power) :
    collect ts = .ok ts.reverse := by
  -- the fold goes on from any sums with higher powers
  have run : ∀ sums : List Term, (∀ t ∈ ts, ∀ s ∈ sums, t.power < s.power) →
      ts.foldlM (fun sums t => insertTerm t sums) sums = .ok (ts.reverse ++ sums) := by
    induction ts with
    | nil => exact fun sums _ => rfl
    | cons t rest ih =>
      intro sums lower
      obtain ⟨first, descending⟩ := List.pairwise_cons.mp descending
      obtain ⟨here, there⟩ := List.forall_mem_cons.mp lower
      rw [List.foldlM_cons, insertTerm_lower here]
      have next : ∀ u ∈ rest, ∀ s ∈ t :: sums, u.power < s.power := fun u mem =>
        List.forall_mem_cons.mpr ⟨first u mem, there u mem⟩
      refine (ih descending (t :: sums) next).trans ?_
      rw [List.reverse_cons, List.append_assoc, List.singleton_append]
  simpa [collect] using run [] (by simp)

namespace Poly

theorem ext {p q : Poly} (terms : p.terms = q.terms) (symbol : p.symbol = q.symbol) : p = q := by
  obtain ⟨ts, s, _, _⟩ := p
  obtain ⟨us, t, _, _⟩ := q
  obtain rfl : ts = us := terms
  obtain rfl : s = t := symbol
  rfl

theorem ofTerms_eq {ts sums : List Term} (collected : collect ts = .ok sums) (symbol : String) :
    ofTerms symbol ts = .ok (ofSums symbol sums (collect_ascending collected)) := by
  rw [ofTerms]
  split
  · rename_i e failed
    rw [collected] at failed
    cases failed
  · rename_i found same
    obtain rfl : found = sums := Except.ok.inj (same.symm.trans collected)
    rfl

/-- A polynomial that was formed from terms is what they were collected into. -/
theorem collect_of_ofTerms {symbol : String} {ts : List Term} {p : Poly}
    (formed : ofTerms symbol ts = .ok p) :
    ∃ sums, ∃ collected : collect ts = .ok sums,
      p = ofSums symbol sums (collect_ascending collected) := by
  unfold ofTerms at formed
  split at formed
  · cases formed
  · rename_i sums collected
    exact ⟨sums, collected, (Except.ok.inj formed).symm⟩

/-- **Terms in order are known by their members.** -/
theorem terms_eq_of_mem_iff {p q : Poly} (members : ∀ t, t ∈ p.terms ↔ t ∈ q.terms) :
    p.terms = q.terms := by
  have nodup : ∀ r : Poly, r.terms.Nodup := fun r =>
    r.descending.imp fun less equal => by
      rw [equal] at less
      exact lt_irrefl _ less
  have perm := (List.perm_ext_iff_of_nodup (nodup p) (nodup q)).mpr members
  exact perm.eq_of_pairwise (fun s t _ _ above below => absurd (above.trans below) (lt_irrefl _))
    p.descending q.descending

/-- **Terms that are in order stay as they are.** -/
theorem ofTerms_descending (symbol : String) {ts : List Term}
    (descending : ts.Pairwise fun s t => t.power < s.power)
    (nonzero : ∀ t ∈ ts, t.coefficient.coefficient ≠ 0) :
    ofTerms symbol ts = .ok ⟨ts, symbol, descending, nonzero⟩ := by
  have kept : ts.filter (fun t => t.coefficient.coefficient ≠ 0) = ts := by
    rw [List.filter_eq_self]
    intro t mem
    simpa using nonzero t mem
  rw [ofTerms_eq (collect_descending descending)]
  refine congrArg Except.ok (ext ?_ rfl)
  simp only [ofSums, List.filter_reverse, List.reverse_reverse, kept]

theorem terms_ofTerm {t : Term} (nonzero : t.coefficient.coefficient ≠ 0) (symbol : String) :
    (ofTerm t symbol).terms = [t] := by
  simp [ofTerm, ofSums, nonzero]

theorem ofTerms_singleton {t : Term} (nonzero : t.coefficient.coefficient ≠ 0) (symbol : String) :
    ofTerms symbol [t] = .ok (ofTerm t symbol) := by
  rw [ofTerms_descending symbol (List.pairwise_singleton _ _) (by simpa using nonzero)]
  exact congrArg Except.ok (ext (terms_ofTerm nonzero symbol).symm rfl)

/-! ## Names -/

/-- Two polynomials have a common name for their variable if the name is the same, or if one of them
has none. -/
theorem commonSymbol_eq {p q : Poly} (compatible : p.symbol = "" ∨ q.symbol = "" ∨ p.symbol = q.symbol) :
    p.commonSymbol q = .ok (if p.symbol = "" then q.symbol else p.symbol) := by
  rw [commonSymbol, if_neg]
  rintro ⟨left, right, apart⟩
  rcases compatible with none | none | same
  · exact left none
  · exact right none
  · exact apart same

/-! ## Sums -/

/-- **A term of lower power goes to the end of a sum.** -/
theorem add_lower {p q : Poly} {t : Term} (single : q.terms = [t])
    (lower : ∀ s ∈ p.terms, t.power < s.power)
    (compatible : p.symbol = "" ∨ q.symbol = "" ∨ p.symbol = q.symbol) :
    ∃ r, p.add q = .ok r ∧ r.terms = p.terms ++ [t] ∧
      r.symbol = if p.symbol = "" then q.symbol else p.symbol := by
  have descending : (p.terms ++ [t]).Pairwise fun s t => t.power < s.power :=
    List.pairwise_append.mpr ⟨p.descending, List.pairwise_singleton _ _, by simpa using lower⟩
  have nonzero : ∀ u ∈ p.terms ++ [t], u.coefficient.coefficient ≠ 0 := by
    intro u mem
    rcases List.mem_append.mp mem with mem | mem
    · exact p.nonzero u mem
    · rw [← single] at mem
      exact q.nonzero u mem
  refine ⟨⟨p.terms ++ [t], if p.symbol = "" then q.symbol else p.symbol, descending, nonzero⟩, ?_,
    rfl, rfl⟩
  rw [add, commonSymbol_eq compatible, single]
  exact ofTerms_descending _ descending nonzero

/-! ## Pairs of terms -/

/-- **The sum over all pairs of terms** is a product of sums. -/
theorem sum_pairs {R : Type*} [Semiring R] (value : Term → R) (ss ts : List Term) :
    ((ss.flatMap fun s => ts.map fun t => (s, t)).map fun x => value x.1 * value x.2).sum =
      (ss.map value).sum * (ts.map value).sum := by
  induction ss with
  | nil => simp
  | cons s rest ih =>
    rw [List.flatMap_cons, List.map_append, List.sum_append, ih, List.map_cons, List.sum_cons,
      add_mul, List.map_map]
    congr 1
    exact List.sum_map_mul_left ts value (value s)

/-! ## Single terms -/

section Single

variable {a b c : Radical} (d e : ℚ) (symbol : String)

theorem neg_ofTerm : (ofTerm ⟨a, e⟩ symbol).neg = ofTerm ⟨a.neg, e⟩ symbol := by
  refine ext ?_ rfl
  by_cases zero : a.coefficient = 0 <;> simp [neg, ofTerm, ofSums, zero]

/-- **The product of two terms**, one of which names the variable. -/
theorem mul_ofTerm (left : a.coefficient ≠ 0) (right : b.coefficient ≠ 0)
    (multiplied : a.mul b = .ok c) (some : c.coefficient ≠ 0) :
    (ofTerm ⟨a, d⟩ "").mul (ofTerm ⟨b, e⟩ symbol) = .ok (ofTerm ⟨c, d + e⟩ symbol) := by
  have products : products [⟨a, d⟩] [⟨b, e⟩] = .ok [⟨c, d + e⟩] := by
    simp [products, mulTerm, multiplied, Except.map]
  rw [mul, commonSymbol_eq (.inl rfl), terms_ofTerm left, terms_ofTerm right]
  simp only [bind, Except.bind, products]
  exact ofTerms_singleton some symbol

/-- **The quotient of two numbers.** -/
theorem divide_constant {p q : ℚ} (left : p ≠ 0) (right : q ≠ 0) :
    (constant (.ofRat p) "").divide (constant (.ofRat q) "") = .ok (constant (.ofRat (p / q)) "") := by
  have quotients : [(⟨.ofRat p, 0⟩ : Term)].mapM (divideTerm · ⟨.ofRat q, 0⟩) =
      .ok [⟨.ofRat (p / q), 0⟩] := by
    simp [divideTerm, Radical.div_ofRat p right, Except.map]
  have some : p / q ≠ 0 := div_ne_zero left right
  rw [divide, constant, constant, terms_ofTerm right, commonSymbol_eq (.inl rfl),
    terms_ofTerm left]
  simp only [bind, Except.bind, quotients]
  exact ofTerms_singleton some ""

/-- **The variable raised to a power.** -/
theorem raise_power (symbol : String) (e : ℚ) :
    (power symbol 1).raise e = .ok (power symbol e) := by
  have terms : (power symbol 1).terms = [⟨.ofRat 1, 1⟩] := terms_ofTerm one_ne_zero symbol
  rw [raise, terms]
  simp [raiseCoefficient, Except.map, power, ofTerm, ofSums]

/-- **The square root of a square-free number.** -/
theorem raise_constant_half {m : Nat} (free : Radical.SquareFree m)
    (le : m ≤ Rational.factorLimit) :
    (constant (.ofRat m) "").raise (1 / 2) = .ok (constant (.ofParts 1 m free) "") := by
  have pos : (m : ℚ) ≠ 0 := Nat.cast_ne_zero.mpr free.pos.ne'
  have terms : (constant (.ofRat m) "").terms = [⟨.ofRat m, 0⟩] := terms_ofTerm pos ""
  have root : raiseConstant (.ofRat m) (1 / 2) = .ok (.ofParts 1 m free) := by
    rw [raiseConstant, Radical.isRational_ofRat, if_pos rfl]
    exact Radical.rationalPower_half free le
  rw [raise, terms]
  simp only [if_true, root]
  rfl

end Single

/-! ## Constants -/

/-- **A constant is a polynomial without a power of the variable.** -/
theorem isConstant_iff (p : Poly) : p.isConstant = true ↔ ∀ t ∈ p.terms, t.power = 0 := by
  have descending := p.descending
  rw [isConstant]
  generalize p.terms = ts at descending ⊢
  match ts with
  | [] => simp
  | [t] => simp
  | t :: s :: rest =>
    refine iff_of_false Bool.false_ne_true fun powers => ?_
    -- two terms have two powers
    have less := (List.pairwise_cons.mp descending).1 s (by simp)
    rw [powers t (by simp), powers s (by simp)] at less
    exact absurd less (lt_irrefl _)

end Poly

end ExactAlgebra
