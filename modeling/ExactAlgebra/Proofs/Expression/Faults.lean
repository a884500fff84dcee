import ExactAlgebra.Expression.Parse
import ExactAlgebra.Proofs.Error.Reported
import ExactAlgebra.Proofs.Expression.Lexing

/-!
# Every fault of an expression is reported

Whatever is wrong with an expression is explained to the person who typed it: a character that
cannot be read, a symbol in the wrong place, or a value that there is no notation for. This holds of
the arithmetic of radicals and polynomials, and from there of each reader of the grammar.

## Main statements

* `Radical.reported_rationalPower`, `Poly.reported_mul`, `Poly.reported_raise` and so on — the
  arithmetic;
* `Expression.reported_lex` — the tokens;
* `Expression.reported_expression` — the grammar, by induction along its readers;
* `Expression.reported_parse` — a whole text.
-/

namespace ExactAlgebra

/-! ## Radicals -/

theorem Rational.reported_parse (s : String) : Reported (Rational.parse s) := by
  unfold Rational.parse
  refine .ite (fun _ => .error rfl) fun _ => ?_
  split
  · exact .error rfl
  · split
    · exact .error rfl
    · exact .ok _

namespace Radical

theorem reported_splitSquare (n : Nat) : Reported (splitSquare n) := by
  unfold splitSquare Rational.checkFactorable
  refine .ite (fun _ => .ok _) fun _ => ?_
  by_cases large : Rational.factorLimit < n
  · rw [if_pos large]
    exact .error rfl
  · rw [if_neg large]
    exact .ok _

theorem reported_make (c r : Rat) : Reported (make c r) := by
  unfold make
  refine .ite (fun _ => .error rfl) fun _ => ?_
  split
  · exact .ok _
  · split
    · rename_i e split
      exact .error (reported_splitSquare _ e split)
    · exact .ok _

theorem reported_add (a b : Radical) : Reported (a.add b) :=
  .ite (fun _ => .ok a) fun _ => .ite (fun _ => .ok b) fun _ =>
    .ite (fun _ => .ok _) fun _ => .error rfl

theorem reported_mul (a b : Radical) : Reported (a.mul b) :=
  reported_make _ _

theorem reported_div (a b : Radical) : Reported (a.div b) :=
  .ite (fun _ => .error rfl) fun _ => reported_make _ _

theorem reported_intPow (a : Radical) (n : Int) : Reported (a.intPow n) :=
  .ite (fun _ => .ok _) fun _ => .ite (fun _ => .error rfl) fun _ => .ok _

theorem reported_pow (a : Radical) (e : Rat) : Reported (a.pow e) :=
  .ite (fun _ => reported_intPow a _) fun _ => .error rfl

theorem reported_rationalPower (base exponent : Rat) : Reported (rationalPower base exponent) := by
  unfold rationalPower
  refine .ite (fun _ => .ite (fun _ => .error rfl) fun _ => .ok _) fun _ => ?_
  refine .ite (fun _ => .ok _) fun _ => .ite (fun _ => reported_make _ _) fun _ => ?_
  refine .ite (fun _ => .error rfl) fun _ => ?_
  split
  · exact .ok _
  · exact .error rfl

end Radical

/-! ## Polynomials -/

theorem reported_insertTerm (t : Term) (sums : List Term) : Reported (insertTerm t sums) := by
  induction sums with
  | nil => exact .ok [t]
  | cons s rest ih =>
    refine .ite (fun _ => .ok _) fun _ => .ite (fun _ => ?_) fun _ => ih.map _
    exact (Radical.reported_add _ _).map _

theorem reported_collect (ts : List Term) : Reported (collect ts) :=
  .foldlM (fun sums t => reported_insertTerm t sums) ts []

namespace Poly

theorem reported_ofTerms (symbol : String) (ts : List Term) : Reported (ofTerms symbol ts) := by
  unfold ofTerms
  split
  · rename_i e collected
    exact .error (reported_collect ts e collected)
  · exact .ok _

theorem reported_commonSymbol (p q : Poly) : Reported (p.commonSymbol q) :=
  .ite (fun _ => .error rfl) fun _ => .ok _

theorem reported_add (p q : Poly) : Reported (p.add q) :=
  (reported_commonSymbol p q).bind fun _ => reported_ofTerms _ _

theorem reported_sub (p q : Poly) : Reported (p.sub q) :=
  reported_add p q.neg

theorem reported_mul (p q : Poly) : Reported (p.mul q) := by
  refine (reported_commonSymbol p q).bind fun _ => ?_
  refine .bind (.mapM fun terms _ => ?_) fun _ => reported_ofTerms _ _
  exact (Radical.reported_mul _ _).map _

theorem reported_divide (p q : Poly) : Reported (p.divide q) := by
  unfold divide
  split
  · exact .error rfl
  · refine (reported_commonSymbol p q).bind fun _ => ?_
    refine .bind (.mapM fun t _ => ?_) fun _ => reported_ofTerms _ _
    exact (Radical.reported_div _ _).map _
  · exact .error rfl

theorem reported_mulPow (result p : Poly) (n : Nat) : Reported (mulPow result p n) := by
  induction n generalizing result with
  | zero => exact .ok result
  | succ n ih => exact (reported_mul result p).bind ih

theorem reported_raiseConstant (c : Radical) (e : Rat) : Reported (raiseConstant c e) :=
  .ite (fun _ => Radical.reported_rationalPower _ _) fun _ => Radical.reported_pow _ _

theorem reported_raiseCoefficient (c : Radical) (e : Rat) : Reported (raiseCoefficient c e) := by
  refine .ite (fun _ => .ok c) fun _ => .ite (fun _ => Radical.reported_intPow _ _) fun _ => ?_
  exact .ite (fun _ => Radical.reported_rationalPower _ _) fun _ => .error rfl

theorem reported_raise (p : Poly) (e : Rat) : Reported (p.raise e) := by
  unfold raise
  split
  · exact .ite (fun _ => .error rfl) fun _ => .ok p
  · refine .ite (fun _ => ?_) fun _ => ?_
    · exact (reported_raiseConstant _ e).map _
    · exact (reported_raiseCoefficient _ e).map _
  · exact .ite (fun _ => .error rfl) fun _ => reported_mulPow _ _ _

end Poly

/-! ## Tokens -/

namespace Expression

theorem reported_lex (cs : List Char) : Reported (lex cs) := by
  have reading := lexes cs
  generalize lex cs = outcome at reading ⊢
  induction reading with
  | nil => exact .ok []
  | blank _ _ ih => exact ih
  | sqrt _ ih | number _ _ ih | single _ _ _ _ _ ih => exact ih.map _
  | unknown => exact .error rfl

/-! ## Readers -/

theorem reported_close (text : String) (ts : List Token) : Reported (close text ts) := by
  unfold close
  split
  · exact .ok _
  · exact .error rfl
  · exact .error rfl

theorem reported_openParen (text : String) (ts : List Token) : Reported (openParen text ts) := by
  unfold openParen
  split
  · exact .ok _
  · exact .error rfl
  · exact .error rfl

theorem reported_exponentValue (p : Poly) : Reported (exponentValue p) :=
  .ite (fun _ => .ok _) fun _ => .error rfl

theorem isReported_unexpected (text : String) (ts : List Token) :
    (unexpected text ts).isReported = true := by
  cases ts <;> rfl

/-- **No reader fails for anything else**: the readers call each other with what is left of the
tokens, and all else that they do fails for nothing else. -/
theorem reported_expression (text : String) (ts : List Token) : Reported (expression text ts) := by
  refine expression.induct (fun ts => Reported (expression text ts))
    (fun sum ts => Reported (addTerms text sum ts)) (fun ts => Reported (term text ts))
    (fun product ts => Reported (multiplyFactors text product ts))
    (fun ts => Reported (unary text ts)) (fun ts => Reported (power text ts))
    (fun ts => Reported (exponent text ts)) (fun ts => Reported (amount text ts))
    (fun ts => Reported (primary text ts))
    ?expression ?addPlus ?addMinus ?endOfSum ?term ?noFactors ?times ?dividedBy ?beside ?endOfProduct
    ?minus ?plus ?unsigned ?power ?exponent ?amountNumber ?amountParen ?noAmount
    ?number ?letter ?sqrt ?paren ?noPrimary ts
  case expression =>
    intro ts first more
    rw [expression]
    exact first.bind fun (p, rest) => (more p rest).bind fun _ => .pure _
  case addPlus =>
    intro sum tail first more
    rw [addTerms]
    exact first.bind fun (p, rest) => (Poly.reported_add sum p).bind fun next =>
      (more rest next).bind fun _ => .pure _
  case addMinus =>
    intro sum tail first more
    rw [addTerms]
    exact first.bind fun (p, rest) => (Poly.reported_sub sum p).bind fun next =>
      (more rest next).bind fun _ => .pure _
  case endOfSum =>
    intro sum ts noPlus noMinus
    rw [addTerms]
    · exact .ok _
    · exact noPlus
    · exact noMinus
  case term =>
    intro ts first more
    rw [term]
    exact first.bind fun (p, rest) => (more p rest).bind fun _ => .pure _
  case noFactors =>
    intro product
    rw [multiplyFactors]
    exact .ok _
  case times =>
    intro product tail first more
    rw [multiplyFactors]
    exact first.bind fun (p, rest) => (Poly.reported_mul product p).bind fun next =>
      (more rest next).bind fun _ => .pure _
  case dividedBy =>
    intro product tail first more
    rw [multiplyFactors]
    exact first.bind fun (p, rest) => (Poly.reported_divide product p).bind fun next =>
      (more rest next).bind fun _ => .pure _
  case beside =>
    intro product t tail noTimes noDivision begins first more
    rw [multiplyFactors, if_pos begins]
    · exact first.bind fun (p, rest) => (Poly.reported_mul product p).bind fun next =>
        (more rest next).bind fun _ => .pure _
    · exact noTimes
    · exact noDivision
  case endOfProduct =>
    intro product t tail noTimes noDivision ends
    rw [multiplyFactors, if_neg ends]
    · exact .ok _
    · exact noTimes
    · exact noDivision
  case minus =>
    intro tail factor
    rw [unary]
    exact factor.bind fun _ => .pure _
  case plus =>
    intro tail factor
    rw [unary]
    exact factor.bind fun _ => .pure _
  case unsigned =>
    intro ts noMinus noPlus factor
    rw [unary]
    · exact factor
    · exact noMinus
    · exact noPlus
  case power =>
    intro ts base exponent
    rw [power]
    refine base.bind fun (p, rest) => ?_
    dsimp only
    cases caret? rest.val with
    | none => exact .pure _
    | some tail =>
      exact (exponent rest tail).bind fun (e, _) => (Poly.reported_raise p e).bind fun _ => .pure _
  case exponent =>
    intro ts negative body signs amount
    rw [exponent, signs]
    exact amount.bind fun _ => .pure _
  case amountNumber =>
    intro spelling tail
    rw [amount]
    exact (Rational.reported_parse spelling).bind fun _ => .pure _
  case amountParen =>
    intro tail inside
    rw [amount]
    exact inside.bind fun (inner, rest) => (reported_close text rest.val).bind fun _ =>
      (reported_exponentValue inner).bind fun _ => .pure _
  case noAmount =>
    intro ts noNumber noParen
    rw [amount]
    · exact .error rfl
    · exact noNumber
    · exact noParen
  case number =>
    intro spelling tail
    rw [primary]
    exact (Rational.reported_parse spelling).bind fun _ => .pure _
  case letter =>
    intro c tail
    rw [primary]
    exact .ok _
  case sqrt =>
    intro tail inside
    rw [primary]
    exact (reported_openParen text tail).bind fun start => (inside start).bind fun (inner, rest) =>
      (reported_close text rest.val).bind fun _ => (Poly.reported_raise inner _).bind fun _ => .pure _
  case paren =>
    intro tail inside
    rw [primary]
    exact inside.bind fun (_, rest) => (reported_close text rest.val).bind fun _ => .pure _
  case noPrimary =>
    intro ts noNumber noLetter noRoot noParen
    rw [primary]
    · exact .error (isReported_unexpected text ts)
    · exact noNumber
    · exact noLetter
    · exact noRoot
    · exact noParen

/-- **Every fault of a text is reported.** -/
theorem reported_parse (text : String) : Reported (parse text) := by
  refine (reported_lex _).bind fun ts => ?_
  unfold parseTokens
  split
  · exact .error rfl
  · refine (reported_expression text ts).bind fun (p, rest) => ?_
    dsimp only
    split
    · exact .pure p
    · exact .error rfl

end Expression

end ExactAlgebra
