import ExactAlgebra.Proofs.Expression.Lexing
import ExactAlgebra.Poly.Text

/-!
# The tokens of a polynomial in writing

The text of a rational, of a radical, of a term and of a polynomial is put together from numerals,
letters and signs. Here are the tokens that it consists of, one list for each kind of text, in the
same cases as the text itself.

## Main statements

* `Rational.spells`, `Radical.spells`, `Term.spells`, `Poly.spells` — the tokens of the texts.

## Main definitions

* `Rational.tokens`, `Radical.tokens`, `Term.tokens`, `Poly.tokens` — the tokens themselves;
* `Poly.IsReadable` — the polynomials in a single letter, and the constants.
-/

namespace ExactAlgebra

open Text Expression

/-- The text of zero. -/
theorem Expression.spells_zero : Spells NoNumeral "0".toList [.number (natText 0)] := by
  have chars : "0".toList = natChars 0 ++ [] := by decide +kernel
  rw [chars]
  exact .number 0 .nil fun rest ends => ends

/-! ## Rationals -/

namespace Rational

/-- **The tokens of a rational.** -/
def tokens (q : ℚ) : List Token :=
  (if q < 0 then [.minus] else []) ++
    .number (natText q.num.natAbs) ::
      if q.den = 1 then [] else [.dividedBy, .number (natText q.den)]

theorem spells_unsigned (q : ℚ) :
    Spells NoNumeral (natChars q.num.natAbs ++ if q.den = 1 then [] else '/' :: natChars q.den)
      (.number (natText q.num.natAbs) ::
        if q.den = 1 then [] else [.dividedBy, .number (natText q.den)]) := by
  split
  · exact .number _ .nil fun rest ends => ends
  · refine .number _ (.sign (by simp) rfl ?_) fun rest _ => noNumeral_cons (by decide) (by decide) _
    have denominator : Spells NoNumeral (natChars q.den ++ []) [.number (natText q.den)] :=
      .number _ .nil fun rest ends => ends
    rwa [List.append_nil] at denominator

theorem chars_eq (q : ℚ) : chars q = (if q < 0 then ['-'] else []) ++
    (natChars q.num.natAbs ++ if q.den = 1 then [] else '/' :: natChars q.den) := by
  have negative : q.num < 0 ↔ q < 0 := Rat.num_neg
  rw [chars, intChars]
  by_cases below : q < 0
  · rw [if_pos (negative.mpr below), if_pos below]
    split <;> simp
  · rw [if_neg (fun less => below (negative.mp less)), if_neg below]
    split <;> simp

theorem spells (q : ℚ) : Spells NoNumeral (text q).toList (tokens q) := by
  rw [text, String.toList_ofList, chars_eq, tokens]
  split
  · exact .sign (by simp) rfl (spells_unsigned q)
  · exact spells_unsigned q

end Rational

/-! ## Radicals -/

namespace Radical

/-- The tokens of the square root of a natural number. -/
def rootTokens (m : Nat) : List Token :=
  [.sqrt, .opening, .number (natText m), .closing]

/-- **The tokens of a radical.** -/
def tokens (a : Radical) : List Token :=
  if a.radicand = 1 then Rational.tokens a.coefficient
  else if a.coefficient = 1 then rootTokens a.radicand
  else if a.coefficient = -1 then .minus :: rootTokens a.radicand
  else Rational.tokens a.coefficient ++ .times :: rootTokens a.radicand

theorem spells_root (m : Nat) (follows : List Char → Prop) :
    Spells follows ("sqrt(" ++ natText m ++ ")").toList (rootTokens m) := by
  have chars : ("sqrt(" ++ natText m ++ ")").toList =
      's' :: 'q' :: 'r' :: 't' :: '(' :: (natChars m ++ [')']) := by
    simp [natText]
  rw [chars]
  refine .sqrt (.sign (by simp) rfl (.number m (.sign (by simp) rfl .nil) fun rest _ => ?_))
  exact noNumeral_cons (by decide) (by decide) _

theorem spells (a : Radical) : Spells NoNumeral a.text.toList a.tokens := by
  rw [text, tokens]
  split
  · exact Rational.spells _
  · dsimp only
    split
    · exact spells_root _ _
    · split
      · have chars (s : String) : ("-" ++ s).toList = '-' :: s.toList := by simp
        rw [chars]
        exact .sign (by simp) rfl (spells_root _ _)
      · have chars (s t : String) : (s ++ "*" ++ ("sqrt(" ++ t)).toList =
            s.toList ++ '*' :: 's' :: ("qrt(" ++ t).toList := by
          simp
        rw [@String.append_assoc "sqrt(", chars]
        refine (Rational.spells _).append (.star (by decide) ?_) fun rest _ => ?_
        · have root := spells_root a.radicand NoNumeral
          have split (t : String) : ("sqrt(" ++ t).toList = 's' :: ("qrt(" ++ t).toList := by simp
          rwa [String.append_assoc, split] at root
        · exact noNumeral_cons (by decide) (by decide) _

end Radical

/-! ## Terms -/

/-- **The tokens of a power of the variable.** -/
def variableTokens (x : Char) (e : ℚ) : List Token :=
  .letter x ::
    if e = 1 then []
    else
      .caret :: if Poly.isNaturalPower e then Rational.tokens e
        else .opening :: (Rational.tokens e ++ [.closing])

theorem spells_variable {x : Char} (letter : x.isAlpha = true) (e : ℚ) :
    Spells NoWord (variableText (String.singleton x) e).toList (variableTokens x e) := by
  rw [variableText, variableTokens]
  split
  · rw [String.toList_singleton]
    exact .letter letter .nil fun rest ends => ends.2
  · rw [String.toList_append, String.toList_singleton, List.singleton_append, powerText]
    split
    · have chars (s : String) : ("^" ++ s).toList = '^' :: s.toList := by simp
      rw [chars]
      refine .letter letter (.sign (by simp) rfl ?_) fun rest _ => noLetter_cons (by decide) _
      exact (Rational.spells e).mono fun rest ends => ends.1
    · have chars (s : String) : ("^(" ++ s ++ ")").toList = '^' :: '(' :: (s.toList ++ [')']) := by
        simp
      rw [chars]
      refine .letter letter (.sign (by simp) rfl (.sign (by simp) rfl ?_)) fun rest _ =>
        noLetter_cons (by decide) _
      refine (Rational.spells e).append (.sign (by simp) rfl .nil) fun rest _ => ?_
      exact noNumeral_cons (by decide) (by decide) _

namespace Term

/-- **The tokens of a term** in the variable `x`. -/
def tokens (t : Term) (x : Char) : List Token :=
  if t.coefficient.isZero then [.number (natText 0)]
  else if t.power = 0 then t.coefficient.tokens
  else if t.coefficient = .ofRat 1 then variableTokens x t.power
  else if t.coefficient = .ofRat (-1) then .minus :: variableTokens x t.power
  else if t.coefficient.isRational && t.coefficient.coefficient.den = 1 then
    t.coefficient.tokens ++ variableTokens x t.power
  else t.coefficient.tokens ++ .times :: variableTokens x t.power

/-- The text of a power of the variable begins with the letter. -/
theorem variableText_toList (x : Char) (e : ℚ) :
    ∃ rest, (variableText (String.singleton x) e).toList = x :: rest := by
  rw [variableText]
  split
  · exact ⟨[], String.toList_singleton x⟩
  · exact ⟨(powerText e).toList, by rw [String.toList_append, String.toList_singleton]; rfl⟩

/-- **The tokens of a term**, in a letter or, for a constant, in any variable. -/
theorem spells (t : Term) {symbol : String} {x : Char}
    (named : t.power = 0 ∨ symbol = String.singleton x ∧ x.isAlpha = true) :
    Spells NoWord (t.text symbol).toList (t.tokens x) := by
  have number (a : Radical) : Spells NoWord a.text.toList a.tokens :=
    a.spells.mono fun rest ends => ends.1
  rw [text, tokens]
  dsimp only
  split
  · exact spells_zero.mono fun rest ends => ends.1
  · split
    · exact number _
    · rename_i power
      obtain ⟨rfl, letter⟩ := named.resolve_left power
      have power := spells_variable letter t.power
      obtain ⟨rest, chars⟩ := variableText_toList x t.power
      split
      · exact power
      · split
        · have minus (s : String) : ("-" ++ s).toList = '-' :: s.toList := by simp
          rw [minus]
          exact .sign (by simp) rfl power
        · split
          · rw [String.toList_append]
            refine (Radical.spells _).append power fun more _ => ?_
            rw [chars]
            exact noNumeral_letter letter _
          · have star (s t : String) : (s ++ "*" ++ t).toList = s.toList ++ '*' :: t.toList := by simp
            rw [star]
            rw [chars] at power ⊢
            refine (Radical.spells _).append (.star (ne_of_isAlpha letter (by decide)) power)
              fun more _ => ?_
            exact noNumeral_cons (by decide) (by decide) _

end Term

/-! ## Polynomials -/

namespace Poly

/-- The tokens of a term that follows others. -/
def followingTokens (x : Char) (t : Term) : List Token :=
  if t.coefficient.isNegative then .minus :: Term.tokens ⟨t.coefficient.neg, t.power⟩ x
  else .plus :: t.tokens x

/-- **The tokens of a polynomial** in the variable `x`. -/
def tokens (p : Poly) (x : Char) : List Token :=
  match p.terms with
  | [] => [.number (natText 0)]
  | t :: rest => t.tokens x ++ rest.flatMap (followingTokens x)

/-- The text of a term that follows others begins with a space. -/
theorem spells_following (t : Term) {symbol : String} {x : Char}
    (named : t.power = 0 ∨ symbol = String.singleton x ∧ x.isAlpha = true) :
    Spells NoWord (followingText symbol t).toList (followingTokens x t) ∧
      ∃ rest, (followingText symbol t).toList = ' ' :: rest := by
  have minus (s : String) : (" - " ++ s).toList = ' ' :: '-' :: ' ' :: s.toList := by simp
  have plus (s : String) : (" + " ++ s).toList = ' ' :: '+' :: ' ' :: s.toList := by simp
  rw [followingText, followingTokens]
  split
  · rw [minus]
    exact ⟨.space (.sign (by simp) rfl (.space (Term.spells _ named))), _, rfl⟩
  · rw [plus]
    exact ⟨.space (.sign (by simp) rfl (.space (Term.spells _ named))), _, rfl⟩

theorem spells_followings (ts : List Term) {symbol : String} {x : Char}
    (named : ∀ t ∈ ts, t.power = 0 ∨ symbol = String.singleton x ∧ x.isAlpha = true) :
    Spells NoWord (String.join (ts.map (followingText symbol))).toList
        (ts.flatMap (followingTokens x)) ∧
      ∀ rest, NoWord rest → NoWord ((String.join (ts.map (followingText symbol))).toList ++ rest) := by
  induction ts with
  | nil => exact ⟨.nil, fun rest ends => by simpa using ends⟩
  | cons t ts ih =>
    obtain ⟨here, there⟩ := List.forall_mem_cons.mp named
    obtain ⟨spells, fits⟩ := ih there
    obtain ⟨following, more, chars⟩ := spells_following t here
    rw [List.map_cons, List.flatMap_cons, String.join_cons, String.toList_append]
    refine ⟨following.append spells fits, fun rest _ => ?_⟩
    rw [chars]
    exact noWord_space _

/-- **The tokens of a polynomial**, in a letter or, for a constant, in any variable. -/
theorem spells (p : Poly) {x : Char}
    (named : (∀ t ∈ p.terms, t.power = 0) ∨ p.symbol = String.singleton x ∧ x.isAlpha = true) :
    Spells NoWord p.text.toList (p.tokens x) := by
  have each : ∀ t ∈ p.terms, t.power = 0 ∨ p.symbol = String.singleton x ∧ x.isAlpha = true :=
    fun t mem => named.imp_left fun constant => constant t mem
  rw [text, tokens]
  cases terms : p.terms with
  | nil => exact spells_zero.mono fun rest ends => ends.1
  | cons t rest =>
    rw [terms] at each
    obtain ⟨here, there⟩ := List.forall_mem_cons.mp each
    obtain ⟨spells, fits⟩ := spells_followings rest there
    dsimp only
    rw [String.toList_append]
    exact (Term.spells t here).append spells fits

/-! ## Readable polynomials -/

/-- **A polynomial whose text can be read**: a constant, or one in a single letter. -/
def IsReadable (p : Poly) : Prop :=
  p.isConstant = true ∨ ∃ x : Char, x.isAlpha = true ∧ p.symbol = String.singleton x

variable {p : Poly}

theorem singleton_ne_empty (x : Char) : String.singleton x ≠ "" := by
  intro same
  have chars := congrArg String.toList same
  rw [String.toList_singleton] at chars
  cases chars

theorem IsReadable.named (readable : p.IsReadable) : p.symbol ≠ "" ∨ p.isConstant = true := by
  rcases readable with constant | ⟨x, -, name⟩
  · exact .inr constant
  · rw [name]
    exact .inl (singleton_ne_empty x)

end Poly

end ExactAlgebra
