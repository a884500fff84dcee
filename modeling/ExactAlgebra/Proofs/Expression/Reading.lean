import ExactAlgebra.Expression.Parse

/-!
# What the readers of the grammar read

Every reader answers with a value and with the tokens that it left, together with a proof about
their number. That proof is of no account for what is read, so `answer` leaves it out. In that form
there is one equation for each way to read a symbol of the grammar, and it holds of the faults as
well. The relation `Reads` says that there was no fault.

## Main statements

* `answer_expression`, `answer_term`, `answer_power`, … — one equation for each way to read;
* `reads_paren`, `reads_power`, `reads_minus` — factors;
* `reads_times`, `reads_dividedBy`, `reads_implicit`, `reads_term` — products;
* `reads_expression` — sums;
* `parseTokens_eq`, `parse_eq` — a whole text.

## Main definitions

* `answer` — what a reader answers, without the proof;
* `Reads` — a reader's value, and the tokens that it left;
* `NoCaret`, `EndsProduct`, `EndsTerm`, `EndsSum` — what follows a power, a product and a sum;
* `BeginsFactor` — what a factor without a sign begins with.
-/

namespace ExactAlgebra.Expression

/-- What a reader answers, without the proof about the tokens that it left. -/
def answer {α : Type} {P : List Token → Prop} (result : Except Error (α × { rest // P rest })) :
    Except Error (α × List Token) :=
  result.map fun (value, rest) => (value, rest.val)

/-- **A reader's value and the tokens that it left.** -/
def Reads {α : Type} {P : List Token → Prop} (result : Except Error (α × { rest // P rest }))
    (value : α) (rest : List Token) : Prop :=
  ∃ proof, result = .ok (value, ⟨rest, proof⟩)

section Answer

variable {α : Type} {P : List Token → Prop} {result : Except Error (α × { rest // P rest })}
  {value : α} {rest : List Token}

theorem reads_iff : Reads result value rest ↔ answer result = .ok (value, rest) := by
  constructor
  · rintro ⟨proof, rfl⟩
    rfl
  · intro same
    rcases result with e | ⟨value', rest', proof⟩
    · cases same
    · cases same
      exact ⟨proof, rfl⟩

/-- The tokens that were left are as the reader promises. -/
theorem Reads.proof (read : Reads result value rest) : P rest := by
  obtain ⟨proof, -⟩ := read
  exact proof

end Answer

variable {text : String} {ts tail rest after : List Token} {p q r : Poly}

/-! ## What follows -/

/-- **Tokens that do not go on with an exponent.** -/
def NoCaret (ts : List Token) : Prop :=
  ts.head? ≠ some .caret

theorem NoCaret.append {ts us : List Token} (first : NoCaret ts) (second : NoCaret us) :
    NoCaret (ts ++ us) := by
  cases ts with
  | nil => exact second
  | cons t ts => exact first

/-- **A product ends** at tokens that neither multiply nor divide. -/
def EndsProduct (ts : List Token) : Prop :=
  ∀ t ∈ ts.head?, t ≠ .times ∧ t ≠ .dividedBy ∧ t.beginsFactor = false

/-- **A sum ends** at tokens that neither add nor subtract. -/
def EndsSum (ts : List Token) : Prop :=
  ts.head? ≠ some .plus ∧ ts.head? ≠ some .minus

/-- What follows a term of a sum. -/
def EndsTerm (ts : List Token) : Prop :=
  ∀ t ∈ ts.head?, t = .plus ∨ t = .minus ∨ t = .closing

theorem EndsTerm.noCaret (ends : EndsTerm ts) : NoCaret ts := by
  intro same
  rcases ends .caret same with h | h | h <;> cases h

theorem EndsTerm.endsProduct (ends : EndsTerm ts) : EndsProduct ts := by
  intro t mem
  rcases ends t mem with rfl | rfl | rfl <;> exact ⟨by simp, by simp, rfl⟩

/-- A sum ends before a closing parenthesis and at the end of the text. -/
theorem endsSum_of_closing {rest : List Token} (ends : ∀ t ∈ rest.head?, t = .closing) :
    EndsSum rest := by
  constructor
  · intro same
    cases ends .plus same
  · intro same
    cases ends .minus same

theorem endsTerm_of_closing {rest : List Token} (ends : ∀ t ∈ rest.head?, t = .closing) :
    EndsTerm rest :=
  fun t mem => .inr (.inr (ends t mem))

/-! ## First tokens of a factor -/

/-- **Tokens that begin a factor**: a number, a letter, a root or a parenthesis comes first. -/
def BeginsFactor (ts : List Token) : Prop :=
  ∃ t tail, ts = t :: tail ∧ t.beginsFactor = true

namespace BeginsFactor

theorem append (begins : BeginsFactor ts) (us : List Token) : BeginsFactor (ts ++ us) := by
  obtain ⟨t, tail, rfl, first⟩ := begins
  exact ⟨t, tail ++ us, rfl, first⟩

/-- They begin with no other token. -/
theorem ne_cons (begins : BeginsFactor ts) {t : Token} (other : t.beginsFactor = false)
    (tail : List Token) : ts ≠ t :: tail := by
  obtain ⟨s, rest, rfl, first⟩ := begins
  intro same
  obtain ⟨rfl, -⟩ := List.cons.inj same
  rw [first] at other
  cases other

theorem noCaret (begins : BeginsFactor ts) : NoCaret ts := by
  intro caret
  obtain ⟨tail, same⟩ := List.head?_eq_some_iff.mp caret
  exact begins.ne_cons rfl tail same

/-- They have no sign in front. -/
theorem endsSum (begins : BeginsFactor ts) : EndsSum ts := by
  constructor
  · intro plus
    obtain ⟨tail, same⟩ := List.head?_eq_some_iff.mp plus
    exact begins.ne_cons rfl tail same
  · intro minus
    obtain ⟨tail, same⟩ := List.head?_eq_some_iff.mp minus
    exact begins.ne_cons rfl tail same

theorem not_endsProduct (begins : BeginsFactor ts) : ¬ EndsProduct ts := by
  obtain ⟨t, tail, rfl, first⟩ := begins
  intro ends
  obtain ⟨-, -, other⟩ := ends t rfl
  rw [first] at other
  cases other

end BeginsFactor

/-! ## Primaries -/

theorem answer_number (spelling : String) :
    answer (primary text (.number spelling :: tail)) =
      Rational.parse spelling >>= fun c => pure (.constant (.ofRat c) "", tail) := by
  rw [primary]
  cases Rational.parse spelling <;> rfl

theorem answer_letter (x : Char) :
    answer (primary text (.letter x :: tail)) = pure (.power (String.singleton x) 1, tail) := by
  rw [primary]
  rfl

theorem answer_sqrt : answer (primary text (.sqrt :: tail)) =
    openParen text tail >>= fun start =>
      answer (expression text start.val) >>= fun (inner, rest) =>
        close text rest >>= fun after =>
          inner.raise (1 / 2) >>= fun root => pure (root, after.val) := by
  rw [primary]
  rcases openParen text tail with e | start
  · rfl
  · show answer (expression text start.val >>= _) = answer (expression text start.val) >>= _
    rcases expression text start.val with e | ⟨inner, rest⟩
    · rfl
    · show answer (close text rest.val >>= _) = close text rest.val >>= _
      rcases close text rest.val with e | after
      · rfl
      · show answer (inner.raise (1 / 2) >>= _) = inner.raise (1 / 2) >>= _
        cases inner.raise (1 / 2) <;> rfl

theorem answer_paren : answer (primary text (.opening :: tail)) =
    answer (expression text tail) >>= fun (inner, rest) =>
      close text rest >>= fun after => pure (inner, after.val) := by
  rw [primary]
  rcases expression text tail with e | ⟨inner, rest⟩
  · rfl
  · show answer (close text rest.val >>= _) = close text rest.val >>= _
    cases close text rest.val <;> rfl

/-- Nothing else begins a primary. -/
theorem answer_unexpected (other : ∀ t ∈ ts.head?, t.beginsFactor = false) :
    answer (primary text ts) = .error (unexpected text ts) := by
  rw [primary]
  · rfl
  -- each of the other cases begins a factor
  all_goals
    intros
    subst ts
    cases other _ rfl

theorem reads_paren (inner : Reads (expression text tail) p (.closing :: rest)) :
    Reads (primary text (.opening :: tail)) p rest := by
  rw [reads_iff] at inner
  rw [reads_iff, answer_paren, inner]
  rfl

/-! ## Exponents -/

theorem answer_amount (spelling : String) :
    answer (amount text (.number spelling :: tail)) =
      Rational.parse spelling >>= fun c => pure (c, tail) := by
  rw [amount]
  cases Rational.parse spelling <;> rfl

theorem answer_amountParen : answer (amount text (.opening :: tail)) =
    answer (expression text tail) >>= fun (inner, rest) =>
      close text rest >>= fun after =>
        exponentValue inner >>= fun c => pure (c, after.val) := by
  rw [amount]
  rcases expression text tail with e | ⟨inner, rest⟩
  · rfl
  · show answer (close text rest.val >>= _) = close text rest.val >>= _
    rcases close text rest.val with e | after
    · rfl
    · show answer (exponentValue inner >>= _) = exponentValue inner >>= _
      cases exponentValue inner <;> rfl

/-- Nothing else is an amount. -/
theorem answer_missing (number : ∀ spelling tail, ts ≠ .number spelling :: tail)
    (paren : ∀ tail, ts ≠ .opening :: tail) :
    answer (amount text ts) = .error (.missingExponent text) := by
  rw [amount]
  · rfl
  · exact number
  · exact paren

theorem answer_exponent : answer (exponent text ts) =
    answer (amount text (exponentSign ts).2.val) >>= fun (q, after) =>
      pure (signed (exponentSign ts).1 q, after) := by
  rw [exponent]
  show answer (amount text (exponentSign ts).2.val >>= _) = _
  cases amount text (exponentSign ts).2.val <;> rfl

/-- No sign, no change. -/
theorem exponentSign_eq (unsigned : EndsSum ts) :
    exponentSign ts = (false, ⟨ts, Nat.le_refl _⟩) := by
  rw [exponentSign]
  · rintro _ rfl
    exact unsigned.2 rfl
  · rintro _ rfl
    exact unsigned.1 rfl

/-! ## Powers and signs -/

/-- A power without a caret is its base. -/
theorem answer_power : answer (power text ts) =
    answer (primary text ts) >>= fun (base, rest) =>
      match caret? rest with
      | some tail =>
        answer (exponent text tail.val) >>= fun (e, after) =>
          base.raise e >>= fun raised => pure (raised, after)
      | none => pure (base, rest) := by
  rw [power]
  rcases primary text ts with e | ⟨base, rest⟩
  · rfl
  · simp only [answer, bind, Except.bind, Except.map]
    rcases caret? rest.val with _ | tail
    · rfl
    · dsimp only
      rcases exponent text tail.val with e | ⟨e, after⟩
      · rfl
      · dsimp only
        cases base.raise e <;> rfl

theorem caret?_eq_none (plain : NoCaret rest) : caret? rest = none := by
  match rest with
  | [] => rfl
  | t :: rest =>
    rw [caret?]
    rintro _ same
    obtain ⟨rfl, -⟩ := List.cons.inj same
    exact plain rfl

theorem answer_minus : answer (unary text (.minus :: tail)) =
    answer (unary text tail) >>= fun (p, rest) => pure (p.neg, rest) := by
  rw [unary]
  cases unary text tail <;> rfl

theorem answer_plus : answer (unary text (.plus :: tail)) = answer (unary text tail) := by
  rw [unary]
  cases unary text tail <;> rfl

theorem answer_unary (unsigned : EndsSum ts) :
    answer (unary text ts) = answer (power text ts) := by
  rw [unary]
  · rintro _ rfl
    exact unsigned.2 rfl
  · rintro _ rfl
    exact unsigned.1 rfl

theorem reads_power (base : Reads (primary text ts) p rest) (plain : rest.head? ≠ some .caret) :
    Reads (power text ts) p rest := by
  rw [reads_iff] at base
  rw [reads_iff, answer_power, base]
  simp only [bind, Except.bind, caret?_eq_none plain]
  rfl

theorem reads_unary (read : Reads (power text ts) p rest)
    (unsigned : ts.head? ≠ some .minus ∧ ts.head? ≠ some .plus) : Reads (unary text ts) p rest := by
  rw [reads_iff] at read
  rw [reads_iff, answer_unary unsigned.symm, read]

theorem reads_minus (read : Reads (unary text tail) p rest) :
    Reads (unary text (.minus :: tail)) p.neg rest := by
  rw [reads_iff] at read
  rw [reads_iff, answer_minus, read]
  rfl

/-! ## Products -/

theorem answer_endOfProduct (ends : EndsProduct ts) :
    answer (multiplyFactors text p ts) = pure (p, ts) := by
  match ts with
  | [] =>
    rw [multiplyFactors]
    rfl
  | t :: ts =>
    obtain ⟨noTimes, noDivision, noFactor⟩ := ends t rfl
    rw [multiplyFactors]
    · rw [noFactor]
      rfl
    · exact noTimes
    · exact noDivision

theorem answer_times : answer (multiplyFactors text p (.times :: tail)) =
    answer (unary text tail) >>= fun (q, rest) =>
      p.mul q >>= fun next => answer (multiplyFactors text next rest) := by
  rw [multiplyFactors]
  rcases unary text tail with e | ⟨q, rest⟩
  · rfl
  · show answer (p.mul q >>= _) = p.mul q >>= _
    rcases p.mul q with e | next
    · rfl
    · show answer (multiplyFactors text next rest.val >>= _) =
          answer (multiplyFactors text next rest.val)
      cases multiplyFactors text next rest.val <;> rfl

theorem answer_dividedBy : answer (multiplyFactors text p (.dividedBy :: tail)) =
    answer (unary text tail) >>= fun (q, rest) =>
      p.divide q >>= fun next => answer (multiplyFactors text next rest) := by
  rw [multiplyFactors]
  rcases unary text tail with e | ⟨q, rest⟩
  · rfl
  · show answer (p.divide q >>= _) = p.divide q >>= _
    rcases p.divide q with e | next
    · rfl
    · show answer (multiplyFactors text next rest.val >>= _) =
          answer (multiplyFactors text next rest.val)
      cases multiplyFactors text next rest.val <;> rfl

/-- A factor without a sign in front of it multiplies. -/
theorem answer_beside (begins : BeginsFactor ts) : answer (multiplyFactors text p ts) =
    answer (unary text ts) >>= fun (q, rest) =>
      p.mul q >>= fun next => answer (multiplyFactors text next rest) := by
  obtain ⟨t, tail, rfl, factor⟩ := begins
  rw [multiplyFactors]
  · rw [if_pos factor]
    rcases unary text (t :: tail) with e | ⟨q, rest⟩
    · rfl
    · show answer (p.mul q >>= _) = p.mul q >>= _
      rcases p.mul q with e | next
      · rfl
      · show answer (multiplyFactors text next rest.val >>= _) =
            answer (multiplyFactors text next rest.val)
        cases multiplyFactors text next rest.val <;> rfl
  · rintro rfl
    cases factor
  · rintro rfl
    cases factor

theorem answer_term : answer (term text ts) =
    answer (unary text ts) >>= fun (p, rest) => answer (multiplyFactors text p rest) := by
  rw [term]
  rcases unary text ts with e | ⟨p, rest⟩
  · rfl
  · show answer (multiplyFactors text p rest.val >>= _) = answer (multiplyFactors text p rest.val)
    cases multiplyFactors text p rest.val <;> rfl

theorem reads_endOfProduct (ends : EndsProduct ts) : Reads (multiplyFactors text p ts) p ts := by
  rw [reads_iff, answer_endOfProduct ends]
  rfl

theorem reads_times (read : Reads (unary text tail) q rest) (multiplied : p.mul q = .ok r)
    {total : Poly} (more : Reads (multiplyFactors text r rest) total after) :
    Reads (multiplyFactors text p (.times :: tail)) total after := by
  rw [reads_iff] at read more
  rw [reads_iff, answer_times, read, ← more]
  simp only [bind, Except.bind, multiplied]

theorem reads_dividedBy (read : Reads (unary text tail) q rest) (divided : p.divide q = .ok r)
    {total : Poly} (more : Reads (multiplyFactors text r rest) total after) :
    Reads (multiplyFactors text p (.dividedBy :: tail)) total after := by
  rw [reads_iff] at read more
  rw [reads_iff, answer_dividedBy, read, ← more]
  simp only [bind, Except.bind, divided]

/-- A factor without a sign in front of it multiplies. -/
theorem reads_implicit {t : Token} (factor : t.beginsFactor = true)
    (read : Reads (unary text (t :: tail)) q rest) (multiplied : p.mul q = .ok r) {total : Poly}
    (more : Reads (multiplyFactors text r rest) total after) :
    Reads (multiplyFactors text p (t :: tail)) total after := by
  rw [reads_iff] at read more
  rw [reads_iff, answer_beside ⟨t, tail, rfl, factor⟩, read, ← more]
  simp only [bind, Except.bind, multiplied]

theorem reads_term (first : Reads (unary text ts) p rest)
    (more : Reads (multiplyFactors text p rest) q after) : Reads (term text ts) q after := by
  rw [reads_iff] at first more
  rw [reads_iff, answer_term, first, ← more]
  rfl

/-! ## Sums -/

theorem answer_endOfSum (ends : EndsSum ts) : answer (addTerms text p ts) = pure (p, ts) := by
  rw [addTerms]
  · rfl
  · rintro _ rfl
    exact ends.1 rfl
  · rintro _ rfl
    exact ends.2 rfl

theorem answer_addPlus : answer (addTerms text p (.plus :: tail)) =
    answer (term text tail) >>= fun (q, rest) =>
      p.add q >>= fun next => answer (addTerms text next rest) := by
  rw [addTerms]
  rcases term text tail with e | ⟨q, rest⟩
  · rfl
  · show answer (p.add q >>= _) = p.add q >>= _
    rcases p.add q with e | next
    · rfl
    · show answer (addTerms text next rest.val >>= _) =
          answer (addTerms text next rest.val)
      cases addTerms text next rest.val <;> rfl

theorem answer_addMinus : answer (addTerms text p (.minus :: tail)) =
    answer (term text tail) >>= fun (q, rest) =>
      p.sub q >>= fun next => answer (addTerms text next rest) := by
  rw [addTerms]
  rcases term text tail with e | ⟨q, rest⟩
  · rfl
  · show answer (p.sub q >>= _) = p.sub q >>= _
    rcases p.sub q with e | next
    · rfl
    · show answer (addTerms text next rest.val >>= _) =
          answer (addTerms text next rest.val)
      cases addTerms text next rest.val <;> rfl

theorem answer_expression : answer (expression text ts) =
    answer (term text ts) >>= fun (p, rest) => answer (addTerms text p rest) := by
  rw [expression]
  rcases term text ts with e | ⟨p, rest⟩
  · rfl
  · show answer (addTerms text p rest.val >>= _) = answer (addTerms text p rest.val)
    cases addTerms text p rest.val <;> rfl

theorem reads_endOfSum (ends : EndsSum ts) : Reads (addTerms text p ts) p ts := by
  rw [reads_iff, answer_endOfSum ends]
  rfl

theorem reads_expression (first : Reads (term text ts) p rest)
    (more : Reads (addTerms text p rest) q after) : Reads (expression text ts) q after := by
  rw [reads_iff] at first more
  rw [reads_iff, answer_expression, first, ← more]
  rfl

/-! ## Whole texts -/

/-- One expression, and nothing after it. -/
theorem parseTokens_eq (some : ts ≠ []) : parseTokens text ts =
    answer (expression text ts) >>= fun (p, rest) =>
      match rest with
      | [] => pure p
      | t :: _ => throw (.unexpectedToken t.text text) := by
  rw [parseTokens, if_neg some]
  rcases expression text ts with e | ⟨p, rest, shorter⟩
  · rfl
  · cases rest <;> rfl

/-- **A whole text** is one expression. -/
theorem parse_eq (lexed : tokens text = .ok ts) (read : Reads (expression text ts) p []) :
    parse text = .ok p := by
  have some : ts ≠ [] := by
    rintro rfl
    exact absurd read.proof (Nat.not_lt_zero _)
  rw [reads_iff] at read
  rw [parse, lexed]
  show parseTokens text ts = _
  rw [parseTokens_eq some, read]
  rfl

end ExactAlgebra.Expression
