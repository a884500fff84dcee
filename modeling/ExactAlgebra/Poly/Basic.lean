import ExactAlgebra.Radical.Power

/-!
# Polynomials in one variable

A polynomial is a finite sum of terms, a radical times a rational power of the variable. It is
always canonical: the powers strictly descend and no coefficient is zero. Powers may be fractional
or negative; only factoring and solving ask for natural ones.

## Main statements

* `insertTerm_ascending`, `collect_ascending` — collecting terms leaves one term for each power, in
  order.

## Main definitions

* `Term`, `Poly` — a term, and the canonical sum;
* `Poly.ofTerms` — the canonical form of any list of terms, partial because like terms may have
  unlike radicals;
* `Monomial`, `Poly.ofMonomials` — terms that carry their own variable, and their sum;
* `Poly.ofCoefficients` — the polynomial with given rational coefficients, highest power first;
* `Poly.dense` — those coefficients back again.
-/

namespace ExactAlgebra

/-! ## Terms -/

/-- **A term**, `coefficient · x ^ power`. -/
structure Term where
  coefficient : Radical
  power : Rat
  deriving DecidableEq

/-- **A polynomial** — its terms, and the name of its variable, which is empty as long as none has
been named. -/
structure Poly where
  terms : List Term
  symbol : String
  /-- One term for each power, highest power first. -/
  descending : terms.Pairwise fun s t => t.power < s.power
  /-- No term vanishes. -/
  nonzero : ∀ t ∈ terms, t.coefficient.coefficient ≠ 0
  deriving DecidableEq

/-- Adds a term to terms with ascending powers. A term of the same power is added to; otherwise the
new one finds its place. -/
def insertTerm (t : Term) : List Term → Except Error (List Term)
  | [] => .ok [t]
  | s :: rest =>
    if t.power < s.power then .ok (t :: s :: rest)
    else if t.power = s.power then
      (s.coefficient.add t.coefficient).map fun c => ⟨c, s.power⟩ :: rest
    else (insertTerm t rest).map (s :: ·)

/-- **Collects like terms**, from left to right, into a list with ascending powers. Sums that are
zero stay in the list. -/
def collect (ts : List Term) : Except Error (List Term) :=
  ts.foldlM (fun sums t => insertTerm t sums) []

theorem le_power_of_mem_insertTerm {p : Rat} {t : Term} {sums result : List Term}
    (ht : p < t.power) (hs : ∀ s ∈ sums, p < s.power) (h : insertTerm t sums = .ok result) :
    ∀ s ∈ result, p < s.power := by
  induction sums generalizing result with
  | nil =>
    cases h
    simpa using ht
  | cons s rest ih =>
    simp only [insertTerm] at h
    split at h
    · cases h
      simp only [List.mem_cons, forall_eq_or_imp] at hs ⊢
      exact ⟨ht, hs⟩
    · split at h
      · cases sum : s.coefficient.add t.coefficient with
        | error e => simp [sum, Except.map] at h
        | ok c =>
          simp only [sum, Except.map, Except.ok.injEq] at h
          subst h
          simp only [List.mem_cons, forall_eq_or_imp] at hs ⊢
          exact hs
      · cases inserted : insertTerm t rest with
        | error e => simp [inserted, Except.map] at h
        | ok r =>
          simp only [inserted, Except.map, Except.ok.injEq] at h
          subst h
          simp only [List.mem_cons, forall_eq_or_imp] at hs ⊢
          exact ⟨hs.1, ih hs.2 inserted⟩

/-- **Inserting keeps the powers strictly ascending.** -/
theorem insertTerm_ascending {t : Term} {sums result : List Term}
    (hs : sums.Pairwise fun s t => s.power < t.power) (h : insertTerm t sums = .ok result) :
    result.Pairwise fun s t => s.power < t.power := by
  induction sums generalizing result with
  | nil =>
    cases h
    simp
  | cons s rest ih =>
    simp only [insertTerm] at h
    rw [List.pairwise_cons] at hs
    split at h
    · rename_i lt
      cases h
      simp only [List.pairwise_cons, List.mem_cons, forall_eq_or_imp]
      exact ⟨⟨lt, fun u hu => Std.lt_trans lt (hs.1 u hu)⟩, hs.1, hs.2⟩
    · rename_i not_lt
      split at h
      · cases sum : s.coefficient.add t.coefficient with
        | error e => simp [sum, Except.map] at h
        | ok c =>
          simp only [sum, Except.map, Except.ok.injEq] at h
          subst h
          rw [List.pairwise_cons]
          exact hs
      · rename_i ne
        cases inserted : insertTerm t rest with
        | error e => simp [inserted, Except.map] at h
        | ok r =>
          simp only [inserted, Except.map, Except.ok.injEq] at h
          subst h
          rw [List.pairwise_cons]
          have lt : s.power < t.power := by grind
          exact ⟨le_power_of_mem_insertTerm lt hs.1 inserted, ih hs.2 inserted⟩

theorem foldlM_insertTerm_ascending {ts sums result : List Term}
    (hs : sums.Pairwise fun s t => s.power < t.power)
    (h : ts.foldlM (fun sums t => insertTerm t sums) sums = .ok result) :
    result.Pairwise fun s t => s.power < t.power := by
  induction ts generalizing sums with
  | nil =>
    cases h
    exact hs
  | cons t rest ih =>
    rw [List.foldlM_cons] at h
    cases inserted : insertTerm t sums with
    | error e => simp [inserted, bind, Except.bind] at h
    | ok r =>
      simp only [inserted, bind, Except.bind] at h
      exact ih (insertTerm_ascending hs inserted) h

/-- **Collecting leaves one term for each power, in ascending order.** -/
theorem collect_ascending {ts result : List Term} (h : collect ts = .ok result) :
    result.Pairwise fun s t => s.power < t.power :=
  foldlM_insertTerm_ascending List.Pairwise.nil h

namespace Poly

/-! ## Construction -/

/-- The canonical form of collected sums: those that vanish are dropped, and the highest power comes
first. -/
def ofSums (symbol : String) (sums : List Term)
    (ascending : sums.Pairwise fun s t => s.power < t.power) : Poly where
  terms := (sums.filter fun t => t.coefficient.coefficient ≠ 0).reverse
  symbol := symbol
  descending := List.pairwise_reverse.2 (ascending.filter _)
  nonzero := by
    intro t ht
    simpa using (List.mem_filter.1 (List.mem_reverse.1 ht)).2

/-- **The canonical form of a sum of terms.** -/
def ofTerms (symbol : String) (ts : List Term) : Except Error Poly :=
  match collected : collect ts with
  | .error e => .error e
  | .ok sums => .ok (ofSums symbol sums (collect_ascending collected))

/-- The zero polynomial in a variable. -/
def zero (symbol : String) : Poly :=
  ofSums symbol [] List.Pairwise.nil

/-- A single term as a polynomial; zero if its coefficient is. -/
def ofTerm (t : Term) (symbol : String) : Poly :=
  ofSums symbol [t] (List.pairwise_singleton _ _)

/-- A constant as a polynomial in a variable. -/
def constant (c : Radical) (symbol : String) : Poly :=
  ofTerm ⟨c, 0⟩ symbol

/-- A power of the variable. -/
def power (symbol : String) (p : Rat) : Poly :=
  ofTerm ⟨.ofRat 1, p⟩ symbol

/-- The terms with given coefficients, lowest power first; the first one is the coefficient of `x ^
p`. -/
def risingTerms (p : Nat) : List Rat → List Term
  | [] => []
  | c :: rest => ⟨.ofRat c, p⟩ :: risingTerms (p + 1) rest

theorem lt_power_of_mem_risingTerms {p q : Nat} {cs : List Rat} (h : p < q) :
    ∀ t ∈ risingTerms q cs, (p : Rat) < t.power := by
  induction cs generalizing q with
  | nil => simp [risingTerms]
  | cons c rest ih =>
    simp only [risingTerms, List.mem_cons, forall_eq_or_imp]
    exact ⟨Rat.natCast_lt_natCast.2 h, ih (by omega)⟩

theorem risingTerms_ascending (p : Nat) (cs : List Rat) :
    (risingTerms p cs).Pairwise fun s t => s.power < t.power := by
  induction cs generalizing p with
  | nil => exact List.Pairwise.nil
  | cons c rest ih =>
    rw [risingTerms, List.pairwise_cons]
    exact ⟨lt_power_of_mem_risingTerms (by omega), ih (p + 1)⟩

/-- **The polynomial with given rational coefficients**, highest power first. -/
def ofCoefficients (coefficients : List Rat) (symbol : String) : Poly :=
  ofSums symbol (risingTerms 0 coefficients.reverse) (risingTerms_ascending 0 _)

/-! ## Inspection -/

/-- Whether there is no term. -/
def isZero (p : Poly) : Bool :=
  p.terms.isEmpty

/-- The highest power; the zero polynomial has none. -/
def degree? (p : Poly) : Option Rat :=
  p.terms.head?.map (·.power)

/-- The coefficient of the highest power, zero for the zero polynomial. -/
def leadingCoefficient (p : Poly) : Radical :=
  (p.terms.head?.map (·.coefficient)).getD (.ofRat 0)

/-- The coefficient of a power, zero if the polynomial has no such term. -/
def coefficient (p : Poly) (power : Rat) : Radical :=
  ((p.terms.find? (·.power = power)).map (·.coefficient)).getD (.ofRat 0)

/-- Whether the variable does not occur. -/
def isConstant (p : Poly) : Bool :=
  match p.terms with
  | [] => true
  | [t] => t.power = 0
  | _ => false

/-- Whether there is exactly one term. -/
def isMonomial (p : Poly) : Bool :=
  p.terms.length = 1

/-- Whether every coefficient is rational. -/
def hasRationalCoefficients (p : Poly) : Bool :=
  p.terms.all (·.coefficient.isRational)

/-- Whether a power is a natural number. -/
def isNaturalPower (e : Rat) : Bool :=
  0 ≤ e && e.den = 1

/-- Whether every power is a natural number. -/
def hasNaturalPowers (p : Poly) : Bool :=
  p.terms.all fun t => isNaturalPower t.power

/-- **Equality as polynomials.** The name of the variable counts only if the variable occurs. -/
def same (p q : Poly) : Bool :=
  p.terms = q.terms && (p.isConstant || p.symbol = q.symbol)

/-- The coefficients of the powers from `n` down to zero, of terms with descending powers up to `n`.
Powers without a term have coefficient zero. -/
def fillDown : Nat → List Term → List Rat
  | n, [] => List.replicate (n + 1) 0
  | 0, t :: _ => [t.coefficient.coefficient]
  | n + 1, t :: rest =>
    if t.power = ((n + 1 : Nat) : Rat) then t.coefficient.coefficient :: fillDown n rest
    else 0 :: fillDown n (t :: rest)

/-- **The rational coefficients, highest power first**, none for the zero polynomial. It is refused
for a polynomial with an irrational coefficient or with a power that is no natural number. -/
def dense (p : Poly) : Except Error (List Rat) :=
  if ! p.hasRationalCoefficients then .error .irrationalCoefficients
  else if ! p.hasNaturalPowers then .error .unnaturalPowers
  else
    match p.terms with
    | [] => .ok []
    | t :: rest => .ok (fillDown t.power.num.natAbs (t :: rest))

/-- The number of coefficients in that list. -/
def coefficientCount (p : Poly) : Nat :=
  if p.hasRationalCoefficients && p.hasNaturalPowers then
    match p.terms with
    | [] => 0
    | t :: _ => t.power.num.natAbs + 1
  else 0

/-- Refuses a polynomial with more coefficients than can be listed. -/
def checkLength (p : Poly) : Except Error Unit :=
  Error.checkLength p.coefficientCount

/-- The value at `x` of the polynomial with given coefficients, highest power first. -/
def horner (coefficients : List Rat) (x : Rat) : Rat :=
  coefficients.foldl (fun value c => value * x + c) 0

/-- **The value at a rational point**, for a polynomial with rational coefficients and natural
powers. -/
def evaluate (p : Poly) (x : Rat) : Except Error Rat :=
  p.dense.map (horner · x)

end Poly

/-! ## Monomials -/

/-- **A monomial** — a term with a variable of its own. A constant names no variable. -/
structure Monomial where
  coefficient : Radical
  power : Rat
  symbol : String
  deriving DecidableEq

namespace Monomial

/-- The monomial `c · x ^ p`; a constant forgets the name of the variable. -/
def make (c : Radical) (p : Rat) (symbol : String) : Monomial where
  coefficient := c
  power := p
  symbol := if p = 0 then "" else symbol

/-- The monomial without its variable. -/
def term (m : Monomial) : Term where
  coefficient := m.coefficient
  power := m.power

end Monomial

/-- Puts a name into a list in alphabetical order, unless it is there already. -/
def insertName (name : String) : List String → List String
  | [] => [name]
  | n :: rest =>
    if name = n then n :: rest
    else if name < n then name :: n :: rest
    else n :: insertName name rest

/-- The variables that occur in some monomials, in alphabetical order. -/
def symbols (ms : List Monomial) : List String :=
  ms.foldl (fun names m => if m.symbol = "" then names else insertName m.symbol names) []

/-- **The sum of monomials**, in the variable that they name, or else in `symbol`. All of them have
to name the same one. -/
def Poly.ofMonomials (ms : List Monomial) (symbol : String) : Except Error Poly :=
  match symbols ms with
  | [] => Poly.ofTerms symbol (ms.map (·.term))
  | [name] =>
    if symbol ≠ "" ∧ name ≠ symbol then .error (.severalVariables [name, symbol])
    else Poly.ofTerms name (ms.map (·.term))
  | names => .error (.severalVariables names)

end ExactAlgebra
