import ExactAlgebra.Proofs.Error.Run
import ExactAlgebra.Proofs.Expression.Unambiguous

/-!
# The readers accept the grammar

On the yield of a derivation a reader answers with the value of the derivation, whether that is a
polynomial or a fault, and leaves the tokens after the yield. On the other hand a reader that answers
with a value has read a derivation of it. So a text is accepted exactly if its tokens have a
derivation whose value exists.

## Main statements

* `Sum.answer_yield`, `Product.answer_yield`, … — completeness: a reader evaluates derivations;
* `sound_expression`, `sound_term`, … — soundness: what a reader accepts has a derivation;
* `parse_derivation` — whole texts.

## Main definitions

* `SoundBelow` — soundness of the reader of expressions for token lists up to a length.
-/

namespace ExactAlgebra.Grammar

open Expression

/-! ## Completeness -/

variable (text : String)

mutual

/-- **A reader evaluates the derivation** whose yield it is given, whatever follows that cannot
belong to it. -/
theorem Sum.answer_yield : ∀ (e : Sum) {rest : List Token}, (∀ t ∈ rest.head?, t = .closing) →
    answer (expression text (e.yield ++ rest)) = e.value >>= fun p => pure (p, rest)
  | .mk first more, rest, ends => by
    rw [Sum.yield, List.append_assoc, answer_expression, first.answer_yield (more.endsTerm ends)]
    simp only [Sum.value, bind_assoc, pure_bind, more.answer_yield ends]

theorem Addends.answer_yield : ∀ (more : Addends) {rest : List Token} {sum : Poly},
    (∀ t ∈ rest.head?, t = .closing) →
    answer (addTerms text sum (more.yield ++ rest)) = more.value sum >>= fun p => pure (p, rest)
  | .nil, rest, sum, ends => by
    rw [Addends.yield, List.nil_append, answer_endOfSum (endsSum_of_closing ends)]
    rfl
  | .plus p more, rest, sum, ends => by
    rw [Addends.yield, List.cons_append, List.append_assoc, answer_addPlus,
      p.answer_yield (more.endsTerm ends)]
    simp only [Addends.value, bind_assoc, pure_bind, more.answer_yield ends]
  | .minus p more, rest, sum, ends => by
    rw [Addends.yield, List.cons_append, List.append_assoc, answer_addMinus,
      p.answer_yield (more.endsTerm ends)]
    simp only [Addends.value, bind_assoc, pure_bind, more.answer_yield ends]

theorem Product.answer_yield : ∀ (e : Product) {rest : List Token}, EndsTerm rest →
    answer (term text (e.yield ++ rest)) = e.value >>= fun p => pure (p, rest)
  | .mk first more, rest, ends => by
    rw [Product.yield, List.append_assoc, answer_term, first.answer_yield (more.noCaret ends.noCaret)]
    simp only [Product.value, bind_assoc, pure_bind, more.answer_yield ends]

theorem Factors.answer_yield : ∀ (more : Factors) {rest : List Token} {product : Poly},
    EndsTerm rest →
    answer (multiplyFactors text product (more.yield ++ rest)) =
      more.value product >>= fun p => pure (p, rest)
  | .nil, rest, product, ends => by
    rw [Factors.yield, List.nil_append, answer_endOfProduct ends.endsProduct]
    rfl
  | .times f more, rest, product, ends => by
    rw [Factors.yield, List.cons_append, List.append_assoc, answer_times,
      f.answer_yield (more.noCaret ends.noCaret)]
    simp only [Factors.value, bind_assoc, pure_bind, more.answer_yield ends]
  | .dividedBy f more, rest, product, ends => by
    rw [Factors.yield, List.cons_append, List.append_assoc, answer_dividedBy,
      f.answer_yield (more.noCaret ends.noCaret)]
    simp only [Factors.value, bind_assoc, pure_bind, more.answer_yield ends]
  | .beside p more, rest, product, ends => by
    have begins := p.beginsFactor.append (more.yield ++ rest)
    rw [Factors.yield, List.append_assoc, answer_beside begins, answer_unary begins.endsSum,
      p.answer_yield (more.noCaret ends.noCaret)]
    simp only [Factors.value, bind_assoc, pure_bind, more.answer_yield ends]

theorem Signed.answer_yield : ∀ (f : Signed) {rest : List Token}, NoCaret rest →
    answer (unary text (f.yield ++ rest)) = f.value >>= fun p => pure (p, rest)
  | .plus f, rest, plain => by
    rw [Signed.yield, List.cons_append, answer_plus, f.answer_yield plain]
    rfl
  | .minus f, rest, plain => by
    rw [Signed.yield, List.cons_append, answer_minus, f.answer_yield plain]
    simp only [Signed.value, bind_assoc, pure_bind]
  | .power p, rest, plain => by
    rw [Signed.yield, answer_unary (p.beginsFactor.append _).endsSum, p.answer_yield plain]
    rfl

theorem Power.answer_yield : ∀ (p : Power) {rest : List Token}, NoCaret rest →
    answer (power text (p.yield ++ rest)) = p.value >>= fun q => pure (q, rest)
  | .plain base, rest, plain => by
    rw [Power.yield, answer_power, base.answer_yield]
    simp only [Power.value, bind_assoc, pure_bind, caret?_eq_none plain]
  | .raised base e, rest, plain => by
    rw [Power.yield, List.append_assoc, List.cons_append, answer_power, base.answer_yield]
    simp only [Power.value, bind_assoc, pure_bind, caret?, e.answer_yield]

theorem Exponent.answer_yield : ∀ (e : Exponent) {rest : List Token},
    answer (exponent text (e.yield ++ rest)) = e.value >>= fun q => pure (q, rest)
  | .plain a, rest => by
    have unsigned := (a.beginsFactor.append rest).endsSum
    rw [Exponent.yield, answer_exponent, exponentSign_eq unsigned, a.answer_yield]
    simp only [Exponent.value, bind_assoc, pure_bind]
    rfl
  | .plus a, rest => by
    rw [Exponent.yield, List.cons_append, answer_exponent]
    simp only [exponentSign, a.answer_yield, Exponent.value, bind_assoc, pure_bind]
    rfl
  | .minus a, rest => by
    rw [Exponent.yield, List.cons_append, answer_exponent]
    simp only [exponentSign, a.answer_yield, Exponent.value, bind_assoc, pure_bind]
    rfl

theorem Amount.answer_yield : ∀ (a : Amount) {rest : List Token},
    answer (amount text (a.yield ++ rest)) = a.value >>= fun q => pure (q, rest)
  | .number spelling, rest => by
    rw [Amount.yield, List.singleton_append, answer_amount]
    rfl
  | .paren inner, rest => by
    rw [Amount.yield, List.cons_append, List.append_assoc, answer_amountParen,
      inner.answer_yield (by simp)]
    simp only [Amount.value, bind_assoc, pure_bind, close, List.singleton_append]
    rfl

theorem Primary.answer_yield : ∀ (p : Primary) {rest : List Token},
    answer (primary text (p.yield ++ rest)) = p.value >>= fun q => pure (q, rest)
  | .number spelling, rest => by
    rw [Primary.yield, List.singleton_append, answer_number]
    simp only [Primary.value, bind_assoc, pure_bind]
  | .letter c, rest => by
    rw [Primary.yield, List.singleton_append, answer_letter]
    rfl
  | .sqrt inner, rest => by
    have start (ts : List Token) :
        openParen text (.opening :: ts) = pure ⟨ts, by simp⟩ := rfl
    rw [Primary.yield, List.cons_append, List.cons_append, List.append_assoc, answer_sqrt, start,
      pure_bind, inner.answer_yield (by simp)]
    simp only [Primary.value, bind_assoc, pure_bind, close, List.singleton_append]
    rfl
  | .paren inner, rest => by
    rw [Primary.yield, List.cons_append, List.append_assoc, answer_paren,
      inner.answer_yield (by simp)]
    simp only [Primary.value, bind_assoc, pure_bind, close, List.singleton_append]
    rfl
end

/-! ## Soundness

The readers call each other in a circle, but only through parentheses, which take tokens. So each of
them is sound as far as the reader of expressions is sound for shorter lists. -/

/-- **Soundness for token lists shorter than `n`**: an expression that is read has a derivation. -/
def SoundBelow (n : Nat) : Prop :=
  ∀ {ts : List Token} {p : Poly} {rest : List Token}, ts.length < n →
    answer (expression text ts) = .ok (p, rest) → ∃ e : Sum, ts = e.yield ++ rest ∧ e.value = .ok p

variable {text} {ts tail rest : List Token} {p : Poly} {q : Rat} {n : Nat}

theorem SoundBelow.mono {m : Nat} (below : SoundBelow text n) (le : m ≤ n) : SoundBelow text m :=
  fun less read => below (Nat.lt_of_lt_of_le less le) read

theorem openParen_eq_ok {start : Shorter ts} (opened : openParen text ts = .ok start) :
    ts = .opening :: start.val := by
  unfold openParen at opened
  split at opened
  · cases opened
    rfl
  · cases opened
  · cases opened

theorem close_eq_ok {after : Shorter ts} (closed : close text ts = .ok after) :
    ts = .closing :: after.val := by
  unfold close at closed
  split at closed
  · cases closed
    rfl
  · cases closed
  · cases closed

/-- An expression up to a closing parenthesis. -/
theorem sound_closed (below : SoundBelow text n) (shorter : tail.length < n)
    (read : answer (expression text tail) = .ok (p, rest)) {after : Shorter rest}
    (closed : close text rest = .ok after) :
    ∃ e : Sum, tail = e.yield ++ .closing :: after.val ∧ e.value = .ok p := by
  obtain ⟨e, yield, value⟩ := below shorter read
  refine ⟨e, ?_, value⟩
  rw [← close_eq_ok closed]
  exact yield

theorem sound_primary (below : SoundBelow text ts.length)
    (read : answer (primary text ts) = .ok (p, rest)) :
    ∃ e : Primary, ts = e.yield ++ rest ∧ e.value = .ok p := by
  match ts with
  | .number spelling :: tail =>
    rw [answer_number] at read
    obtain ⟨c, value, done⟩ := ok_of_bind read
    cases done
    refine ⟨.number spelling, rfl, ?_⟩
    rw [Primary.value, value]
    rfl
  | .letter c :: tail =>
    rw [answer_letter] at read
    cases read
    exact ⟨.letter c, rfl, rfl⟩
  | .sqrt :: tail =>
    rw [answer_sqrt] at read
    obtain ⟨start, opened, read⟩ := ok_of_bind read
    obtain ⟨⟨inner, before⟩, inside, done⟩ := ok_of_bind read
    obtain ⟨after, closed, done⟩ := ok_of_bind done
    obtain ⟨root, raised, done⟩ := ok_of_bind done
    cases done
    have shorter : start.val.length < (Token.sqrt :: tail).length :=
      Nat.lt_succ_of_lt start.property
    obtain ⟨e, yield, value⟩ := sound_closed below shorter inside closed
    refine ⟨.sqrt e, ?_, ?_⟩
    · rw [Primary.yield, openParen_eq_ok opened, yield]
      simp
    · rw [Primary.value, value]
      exact raised
  | .opening :: tail =>
    rw [answer_paren] at read
    obtain ⟨⟨inner, before⟩, inside, done⟩ := ok_of_bind read
    obtain ⟨after, closed, done⟩ := ok_of_bind done
    cases done
    obtain ⟨e, yield, value⟩ := sound_closed below (Nat.lt_succ_self _) inside closed
    refine ⟨.paren e, ?_, value⟩
    rw [Primary.yield, yield]
    simp
  | [] | .plus :: _ | .minus :: _ | .times :: _ | .dividedBy :: _ | .caret :: _ | .closing :: _ =>
    rw [answer_unexpected (by rintro _ ⟨⟩ <;> rfl)] at read
    cases read

theorem sound_amount (below : SoundBelow text ts.length)
    (read : answer (amount text ts) = .ok (q, rest)) :
    ∃ a : Amount, ts = a.yield ++ rest ∧ a.value = .ok q := by
  by_cases number : ∃ spelling tail, ts = .number spelling :: tail
  · obtain ⟨spelling, tail, rfl⟩ := number
    rw [answer_amount] at read
    obtain ⟨c, value, done⟩ := ok_of_bind read
    cases done
    exact ⟨.number spelling, rfl, value⟩
  · by_cases paren : ∃ tail, ts = .opening :: tail
    · obtain ⟨tail, rfl⟩ := paren
      rw [answer_amountParen] at read
      obtain ⟨⟨inner, before⟩, inside, done⟩ := ok_of_bind read
      obtain ⟨after, closed, done⟩ := ok_of_bind done
      obtain ⟨c, constant, done⟩ := ok_of_bind done
      cases done
      obtain ⟨e, yield, value⟩ := sound_closed below (Nat.lt_succ_self _) inside closed
      refine ⟨.paren e, ?_, ?_⟩
      · rw [Amount.yield, yield]
        simp
      · rw [Amount.value, value]
        exact constant
    · rw [answer_missing (fun spelling tail same => number ⟨spelling, tail, same⟩)
        (fun tail same => paren ⟨tail, same⟩)] at read
      cases read

theorem sound_exponent (below : SoundBelow text ts.length)
    (read : answer (exponent text ts) = .ok (q, rest)) :
    ∃ e : Exponent, ts = e.yield ++ rest ∧ e.value = .ok q := by
  rw [answer_exponent] at read
  obtain ⟨⟨c, after⟩, read, done⟩ := ok_of_bind read
  cases done
  obtain ⟨a, yield, value⟩ := sound_amount (below.mono (exponentSign ts).2.property) read
  -- the three signs of an exponent
  match ts with
  | .minus :: tail =>
    refine ⟨.minus a, congrArg (Token.minus :: ·) yield, ?_⟩
    rw [Exponent.value, value]
    rfl
  | .plus :: tail => exact ⟨.plus a, congrArg (Token.plus :: ·) yield, value⟩
  | [] => exact ⟨.plain a, yield, value⟩
  | .number _ :: _ | .letter _ :: _ | .sqrt :: _ | .times :: _ | .dividedBy :: _ | .caret :: _
  | .opening :: _ | .closing :: _ => exact ⟨.plain a, yield, value⟩

/-- The tokens that a reader left are fewer. -/
theorem length_lt {α : Type} {result : Except Error (α × Shorter ts)} {a : α}
    (read : answer result = .ok (a, rest)) : rest.length < ts.length :=
  (reads_iff.mpr read).proof

theorem sound_power (below : SoundBelow text ts.length)
    (read : answer (power text ts) = .ok (p, rest)) :
    ∃ e : Power, ts = e.yield ++ rest ∧ e.value = .ok p := by
  rw [answer_power] at read
  obtain ⟨⟨base, after⟩, read, done⟩ := ok_of_bind read
  obtain ⟨b, yield, value⟩ := sound_primary below read
  have shorter := length_lt read
  by_cases raised : after.head? = some .caret
  · obtain ⟨tail, rfl⟩ : ∃ tail, after = .caret :: tail := List.head?_eq_some_iff.mp raised
    obtain ⟨⟨c, rest⟩, exponent, done⟩ := ok_of_bind done
    obtain ⟨r, raised, done⟩ := ok_of_bind done
    cases done
    have le : tail.length ≤ ts.length := Nat.le_of_lt (Nat.lt_of_succ_lt shorter)
    obtain ⟨e, yield', value'⟩ := sound_exponent (below.mono le) exponent
    refine ⟨.raised b e, ?_, ?_⟩
    · rw [Power.yield, yield, yield', List.append_assoc, List.cons_append]
    · rw [Power.value, value, value']
      exact raised
  · dsimp only at done
    rw [caret?_eq_none raised] at done
    cases done
    exact ⟨.plain b, yield, value⟩

theorem sound_unary (below : SoundBelow text ts.length)
    (read : answer (unary text ts) = .ok (p, rest)) :
    ∃ e : Signed, ts = e.yield ++ rest ∧ e.value = .ok p := by
  induction ts generalizing p with
  | nil =>
    rw [answer_unary (by simp [EndsSum])] at read
    obtain ⟨e, yield, value⟩ := sound_power below read
    exact ⟨.power e, yield, value⟩
  | cons t tail ih =>
    have ih {p : Poly} := ih (p := p) (below.mono (Nat.le_succ _))
    by_cases minus : t = .minus
    · subst minus
      rw [answer_minus] at read
      obtain ⟨⟨q, after⟩, read, done⟩ := ok_of_bind read
      cases done
      obtain ⟨e, yield, value⟩ := ih read
      refine ⟨.minus e, congrArg (Token.minus :: ·) yield, ?_⟩
      rw [Signed.value, value]
      rfl
    · by_cases plus : t = .plus
      · subst plus
        rw [answer_plus] at read
        obtain ⟨e, yield, value⟩ := ih read
        exact ⟨.plus e, congrArg (Token.plus :: ·) yield, value⟩
      · rw [answer_unary (by simpa [EndsSum] using ⟨plus, minus⟩)] at read
        obtain ⟨e, yield, value⟩ := sound_power below read
        exact ⟨.power e, yield, value⟩

/-- Further factors, by induction on the number of tokens: each of them takes at least one. -/
theorem sound_multiplyFactors (below : SoundBelow text n) (le : ts.length ≤ n) {product : Poly}
    (read : answer (multiplyFactors text product ts) = .ok (p, rest)) :
    ∃ more : Factors, ts = more.yield ++ rest ∧ more.value product = .ok p := by
  induction length : ts.length using Nat.strongRecOn generalizing ts product with
  | ind m ih =>
    subst length
    have goesOn : ∀ {after : List Token} {next : Poly}, after.length < ts.length →
        answer (multiplyFactors text next after) = .ok (p, rest) →
        ∃ more : Factors, after = more.yield ++ rest ∧ more.value next = .ok p :=
      fun fewer further => ih _ fewer (Nat.le_trans (Nat.le_of_lt fewer) le) further rfl
    match ts with
    | [] =>
      rw [answer_endOfProduct (by simp [EndsProduct])] at read
      cases read
      exact ⟨.nil, rfl, rfl⟩
    | t :: tail =>
      have below' : SoundBelow text tail.length := below.mono (Nat.le_of_succ_le le)
      by_cases times : t = .times
      · subst times
        rw [answer_times] at read
        obtain ⟨⟨q, after⟩, factor, read⟩ := ok_of_bind read
        obtain ⟨next, multiplied, further⟩ := ok_of_bind read
        obtain ⟨f, yield, value⟩ := sound_unary below' factor
        obtain ⟨more, yield', value'⟩ := goesOn (Nat.lt_succ_of_lt (length_lt factor)) further
        refine ⟨.times f more, ?_, ?_⟩
        · rw [Factors.yield, yield, yield', List.cons_append, List.append_assoc]
        · simp only [Factors.value, value, multiplied, value', bind, Except.bind]
      by_cases division : t = .dividedBy
      · subst division
        rw [answer_dividedBy] at read
        obtain ⟨⟨q, after⟩, factor, read⟩ := ok_of_bind read
        obtain ⟨next, divided, further⟩ := ok_of_bind read
        obtain ⟨f, yield, value⟩ := sound_unary below' factor
        obtain ⟨more, yield', value'⟩ := goesOn (Nat.lt_succ_of_lt (length_lt factor)) further
        refine ⟨.dividedBy f more, ?_, ?_⟩
        · rw [Factors.yield, yield, yield', List.cons_append, List.append_assoc]
        · simp only [Factors.value, value, divided, value', bind, Except.bind]
      by_cases first : t.beginsFactor = true
      · have begins : BeginsFactor (t :: tail) := ⟨t, tail, rfl, first⟩
        rw [answer_beside begins] at read
        obtain ⟨⟨q, after⟩, factor, read⟩ := ok_of_bind read
        obtain ⟨next, multiplied, further⟩ := ok_of_bind read
        obtain ⟨more, yield', value'⟩ := goesOn (length_lt factor) further
        -- without a sign in front the factor is a power
        rw [answer_unary begins.endsSum] at factor
        obtain ⟨e, yield, value⟩ := sound_power (below.mono le) factor
        refine ⟨.beside e more, ?_, ?_⟩
        · rw [Factors.yield, yield, yield', List.append_assoc]
        · simp only [Factors.value, value, multiplied, value', bind, Except.bind]
      · have ends : EndsProduct (t :: tail) := by
          intro s mem
          obtain rfl := Option.some.inj mem
          exact ⟨times, division, by simpa using first⟩
        rw [answer_endOfProduct ends] at read
        cases read
        exact ⟨.nil, rfl, rfl⟩

theorem sound_term (below : SoundBelow text ts.length)
    (read : answer (term text ts) = .ok (p, rest)) :
    ∃ e : Product, ts = e.yield ++ rest ∧ e.value = .ok p := by
  rw [answer_term] at read
  obtain ⟨⟨q, after⟩, factor, further⟩ := ok_of_bind read
  obtain ⟨first, yield, value⟩ := sound_unary below factor
  obtain ⟨more, yield', value'⟩ :=
    sound_multiplyFactors below (Nat.le_of_lt (length_lt factor)) further
  refine ⟨.mk first more, ?_, ?_⟩
  · rw [Product.yield, yield, yield', List.append_assoc]
  · simp only [Product.value, value, value', bind, Except.bind]

theorem sound_addTerms (below : SoundBelow text n) (le : ts.length ≤ n) {sum : Poly}
    (read : answer (addTerms text sum ts) = .ok (p, rest)) :
    ∃ more : Addends, ts = more.yield ++ rest ∧ more.value sum = .ok p := by
  induction length : ts.length using Nat.strongRecOn generalizing ts sum with
  | ind m ih =>
    subst length
    have goesOn : ∀ {after : List Token} {next : Poly}, after.length < ts.length →
        answer (addTerms text next after) = .ok (p, rest) →
        ∃ more : Addends, after = more.yield ++ rest ∧ more.value next = .ok p :=
      fun fewer further => ih _ fewer (Nat.le_trans (Nat.le_of_lt fewer) le) further rfl
    by_cases plus : ts.head? = some .plus
    · obtain ⟨tail, rfl⟩ := List.head?_eq_some_iff.mp plus
      rw [answer_addPlus] at read
      obtain ⟨⟨q, after⟩, product, read⟩ := ok_of_bind read
      obtain ⟨next, added, further⟩ := ok_of_bind read
      obtain ⟨e, yield, value⟩ := sound_term (below.mono (Nat.le_of_succ_le le)) product
      obtain ⟨more, yield', value'⟩ := goesOn (Nat.lt_succ_of_lt (length_lt product)) further
      refine ⟨.plus e more, ?_, ?_⟩
      · rw [Addends.yield, yield, yield', List.cons_append, List.append_assoc]
      · simp only [Addends.value, value, added, value', bind, Except.bind]
    by_cases minus : ts.head? = some .minus
    · obtain ⟨tail, rfl⟩ := List.head?_eq_some_iff.mp minus
      rw [answer_addMinus] at read
      obtain ⟨⟨q, after⟩, product, read⟩ := ok_of_bind read
      obtain ⟨next, subtracted, further⟩ := ok_of_bind read
      obtain ⟨e, yield, value⟩ := sound_term (below.mono (Nat.le_of_succ_le le)) product
      obtain ⟨more, yield', value'⟩ := goesOn (Nat.lt_succ_of_lt (length_lt product)) further
      refine ⟨.minus e more, ?_, ?_⟩
      · rw [Addends.yield, yield, yield', List.cons_append, List.append_assoc]
      · simp only [Addends.value, value, subtracted, value', bind, Except.bind]
    · rw [answer_endOfSum ⟨plus, minus⟩] at read
      cases read
      exact ⟨.nil, rfl, rfl⟩

/-- Parentheses hold a shorter list, so the readers are sound one length after the other. -/
theorem soundBelow (text : String) (n : Nat) : SoundBelow text n := by
  induction n with
  | zero => exact fun shorter => absurd shorter (Nat.not_lt_zero _)
  | succ n below =>
    intro ts p rest shorter read
    have below : SoundBelow text ts.length := below.mono (Nat.le_of_lt_succ shorter)
    rw [answer_expression] at read
    obtain ⟨⟨q, after⟩, product, further⟩ := ok_of_bind read
    obtain ⟨first, yield, value⟩ := sound_term below product
    obtain ⟨more, yield', value'⟩ :=
      sound_addTerms below (Nat.le_of_lt (length_lt product)) further
    refine ⟨.mk first more, ?_, ?_⟩
    · rw [Sum.yield, yield, yield', List.append_assoc]
    · simp only [Sum.value, value, value', bind, Except.bind]

/-- **An expression that is read has a derivation.** -/
theorem sound_expression (read : answer (expression text ts) = .ok (p, rest)) :
    ∃ e : Sum, ts = e.yield ++ rest ∧ e.value = .ok p :=
  soundBelow text _ (Nat.lt_succ_self _) read

/-! ## Whole texts -/

theorem Signed.yield_ne_nil (f : Signed) : f.yield ≠ [] := by
  cases f with
  | plus f => exact List.cons_ne_nil _ _
  | minus f => exact List.cons_ne_nil _ _
  | power p =>
    obtain ⟨t, ts, yield, -⟩ := p.beginsFactor
    rw [Signed.yield, yield]
    exact List.cons_ne_nil _ _

/-- An expression has at least one token. -/
theorem Sum.yield_ne_nil (e : Sum) : e.yield ≠ [] := by
  obtain ⟨⟨first, factors⟩, addends⟩ := e
  rw [Sum.yield, Product.yield]
  exact List.append_ne_nil_of_left_ne_nil
    (List.append_ne_nil_of_left_ne_nil first.yield_ne_nil _) _

/-- **The tokens of a derivation are evaluated.** -/
theorem parseTokens_yield (text : String) (e : Sum) : parseTokens text e.yield = e.value := by
  have read : answer (expression text (e.yield ++ [])) = _ := e.answer_yield text (by simp)
  rw [List.append_nil] at read
  rw [parseTokens_eq e.yield_ne_nil, read]
  simp only [bind_assoc, pure_bind, bind_pure]

/-- **What is accepted has a derivation.** -/
theorem exists_of_parseTokens (accepted : parseTokens text ts = .ok p) :
    ∃ e : Sum, e.yield = ts ∧ e.value = .ok p := by
  by_cases none : ts = []
  · rw [parseTokens, if_pos none] at accepted
    cases accepted
  rw [parseTokens_eq none] at accepted
  obtain ⟨⟨q, rest⟩, read, done⟩ := ok_of_bind accepted
  obtain ⟨e, yield, value⟩ := sound_expression read
  cases rest with
  | nil =>
    cases done
    exact ⟨e, by rw [yield, List.append_nil], value⟩
  | cons t rest => cases done

/-- **The grammar, and nothing else, is accepted.** A text denotes a polynomial exactly if its whole
token list is the yield of a derivation with that polynomial as its value. There is one such
derivation at most; where there is one, the answer is its value, be that a polynomial or the first
fault; and where there is none, the text is refused. -/
theorem parse_derivation (text : String) :
    (∀ p, parse text = .ok p ↔ ∃ e : Sum, tokens text = .ok e.yield ∧ e.value = .ok p) ∧
      (∀ e e' : Sum, tokens text = .ok e.yield → tokens text = .ok e'.yield → e = e') ∧
        (∀ e : Sum, tokens text = .ok e.yield → parse text = e.value) ∧
          ((¬ ∃ e : Sum, tokens text = .ok e.yield) → ∃ fault, parse text = .error fault) := by
  have evaluates : ∀ e : Sum, tokens text = .ok e.yield → parse text = e.value := by
    intro e lexed
    rw [parse, lexed]
    exact parseTokens_yield text e
  have accepts : ∀ {p}, parse text = .ok p →
      ∃ e : Sum, tokens text = .ok e.yield ∧ e.value = .ok p := by
    intro p accepted
    obtain ⟨ts, lexed, accepted⟩ := ok_of_bind accepted
    obtain ⟨e, rfl, value⟩ := exists_of_parseTokens accepted
    exact ⟨e, lexed, value⟩
  refine ⟨fun p => ⟨accepts, ?_⟩, ?_, evaluates, ?_⟩
  · rintro ⟨e, lexed, value⟩
    rw [evaluates e lexed, value]
  · intro e e' lexed lexed'
    rw [lexed] at lexed'
    exact Sum.yield_injective (Except.ok.inj lexed')
  · intro none
    cases answered : parse text with
    | error fault => exact ⟨fault, rfl⟩
    | ok p =>
      obtain ⟨e, lexed, -⟩ := accepts answered
      exact absurd ⟨e, lexed⟩ none

end ExactAlgebra.Grammar
