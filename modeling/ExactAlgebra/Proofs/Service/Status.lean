import ExactAlgebra.Proofs.Service.Faults

/-!
# The status of a response

A request for a computation whose body has the right form is answered with success, or it is told
what is wrong with the input, or that there is no such operation. The only way in which the service
itself fails is that a polynomial has more coefficients than a list can have.

## Main statements

* `status_of_reported` — a computation that fails only for what is reported;
* `Route.status_respond` — the status for each route;
* `respond_reported` — no computation fails for anything but what is reported, and what the status
  of a response says.

## Main definitions

* `Route.isTyped` — whether a body has the form that a route asks for;
* `Route.isUnknown` — whether a route is for an operation that there is not;
* `Route.listed?` — the polynomial whose coefficients are listed to answer a request;
* `StatusSays` — what a status says about a request.
-/

namespace ExactAlgebra.Service

open ExactAlgebra.Text

/-! ## Requests -/

/-- **Whether a body has the form that a route asks for.** -/
def Route.isTyped (route : Route) (body : Json) : Bool :=
  match route with
  | simplify | factor => (readTextBody "expression" body).isSome
  | solve => (readTextBody "equation" body).isSome
  | matrix _ => (readMatrixRequest body).isSome
  | system => (readSystemRequest body).isSome
  | compare => (readPairRequest body).isSome
  | documentation => false

/-- Whether a route is for an operation that there is not. -/
def Route.isUnknown : Route → Bool
  | matrix name => (Operation.ofName? name).isNone
  | _ => false

/-- **The polynomial whose coefficients are listed** to answer a request: the one to factor, or the
standard form of the equation to solve. There is none if the text is refused before. -/
def Route.listed? (route : Route) (body : Json) : Option Poly :=
  match route with
  | factor =>
    (readTextBody "expression" body).bind fun typed => (expressionOf (trim typed)).toOption
  | solve =>
    (readTextBody "equation" body).bind fun typed =>
      (solvableOf (trim typed)).toOption.map Equation.difference
  | _ => none

/-! ## Statuses -/

/-- **What a status says**: there is no such operation, or a limit has been reached, or neither. -/
structure StatusSays (status : Nat) (unknown limit : Prop) : Prop where
  notFound_iff : status = 404 ↔ unknown
  failure_iff : status = 500 ↔ limit
  known : status = 200 ∨ status = 400 ∨ status = 404 ∨ status = 500

theorem StatusSays.neither {status : Nat} {unknown limit : Prop}
    (answered : status = 200 ∨ status = 400) (found : ¬ unknown) (room : ¬ limit) : StatusSays status unknown limit := by
  refine ⟨iff_of_false ?_ found, iff_of_false ?_ room, ?_⟩ <;> omega

theorem StatusSays.unknown {status : Nat} {unknown limit : Prop} (is : status = 404)
    (missing : unknown) (room : ¬ limit) : StatusSays status unknown limit := by
  refine ⟨iff_of_true is missing, iff_of_false ?_ room, ?_⟩ <;> omega

theorem StatusSays.limit {status : Nat} {unknown limit : Prop} (is : status = 500)
    (found : ¬ unknown) (reached : limit) : StatusSays status unknown limit := by
  refine ⟨iff_of_false ?_ found, iff_of_true is reached, ?_⟩ <;> omega

/-- **A computation that fails only for what is reported** succeeds or tells what is wrong. -/
theorem status_of_reported {r : Except Error Json} (reported : Reported r) :
    (respondWith r).status = 200 ∨ (respondWith r).status = 400 := by
  cases r with
  | ok body => exact .inl rfl
  | error e =>
    right
    rw [respondWith, if_pos (reported e rfl)]
    rfl

theorem status_of_limit {e : Error} (limit : e.isLimit = true) :
    (respondWith (.error e)).status = 500 := by
  have unreported : e.isReported = false := by
    have listed : e = .listTooLong ∨ e = .noRoom := by simpa [Error.isLimit] using limit
    rcases listed with rfl | rfl <;> rfl
  rw [respondWith, if_neg (by simp [unreported])]
  rfl

/-! ## Texts -/

theorem checkInput_blank : checkInput "" = .error .blankExpression := by
  decide

section Texts

variable {α β : Type} {compute : String → Except Error β} {json : String → β → Json}

/-- The status for a text; a blank one is refused at once. -/
theorem status_onText {what typed : String} (reported : Reported (compute (trim typed))) :
    (onText what typed fun s => (compute s).map (json s)).status = 200 ∨
      (onText what typed fun s => (compute s).map (json s)).status = 400 := by
  unfold onText
  split
  · exact .inr rfl
  · exact status_of_reported (reported.map _)

/-- **The status for a text whose answer lists the coefficients of a polynomial.** -/
theorem status_limited {what typed : String} {first : Except Error α} {listed : α → Poly}
    {unknown : Prop} (known : ¬ unknown) (shown : ∀ a, first = .ok a → trim typed ≠ "")
    (answered :
      (∃ a e, first = .ok a ∧ Error.roomLimit ≤ (listed a).coefficientCount ∧
        compute (trim typed) = .error e ∧ e.isLimit = true) ∨
      (∀ a, first = .ok a → (listed a).coefficientCount < Error.roomLimit) ∧
        Reported (compute (trim typed))) :
    StatusSays (onText what typed fun s => (compute s).map (json s)).status unknown
      (∃ p, first.toOption.map listed = some p ∧ Error.roomLimit ≤ p.coefficientCount) := by
  rcases answered with ⟨a, e, run, large, failed, limit⟩ | ⟨room, reported⟩
  · refine .limit ?_ known ⟨listed a, ?_, large⟩
    · rw [onText, if_neg (shown a run), failed]
      exact status_of_limit limit
    · rw [run]
      rfl
  · refine .neither (status_onText reported) known ?_
    rintro ⟨p, found, large⟩
    cases run : first with
    | error e =>
      rw [run] at found
      cases found
    | ok a =>
      rw [run] at found
      cases found
      exact absurd large (Nat.not_le_of_lt (room a run))

end Texts

/-- Nothing is read from a blank text. -/
theorem ne_blank_of_checkInput {α : Type} {typed : String} {rest : String → Except Error α} {a : α}
    (run : checkInput typed >>= rest = .ok a) : typed ≠ "" := by
  rintro rfl
  rw [checkInput_blank] at run
  cases run

/-! ## Routes -/

/-- **The status for each route.** -/
theorem Route.status_respond {route : Route} {body : Json} (typed : route.isTyped body = true) :
    StatusSays (route.respond body).status (route.isUnknown = true)
      (∃ p, route.listed? body = some p ∧ Error.roomLimit ≤ p.coefficientCount) := by
  -- only the routes for texts list coefficients
  have never : ¬ ∃ p, (none : Option Poly) = some p ∧ Error.roomLimit ≤ p.coefficientCount := by
    rintro ⟨p, ⟨⟩, -⟩
  have known : ¬ false = true := Bool.false_ne_true
  cases route with
  | simplify =>
    obtain ⟨s, read⟩ := Option.isSome_iff_exists.mp typed
    rw [respond, onBody, read]
    exact .neither (status_onText (reported_simplifyText _)) known never
  | factor =>
    obtain ⟨s, read⟩ := Option.isSome_iff_exists.mp typed
    have listed : factor.listed? body = (expressionOf (trim s)).toOption.map fun p => p := by
      rw [listed?, read, Option.bind_some, Option.map_id']
    rw [respond, onBody, read, listed]
    exact status_limited known (fun p run => ne_blank_of_checkInput run) (factorText_cases _)
  | solve =>
    obtain ⟨s, read⟩ := Option.isSome_iff_exists.mp typed
    have listed : solve.listed? body = (solvableOf (trim s)).toOption.map Equation.difference := by
      rw [listed?, read, Option.bind_some]
    rw [respond, onBody, read, listed]
    exact status_limited known (fun e run => ne_blank_of_checkInput run) (ofText_cases _)
  | matrix name =>
    obtain ⟨request, read⟩ := Option.isSome_iff_exists.mp typed
    rw [respond, onBody, read, isUnknown]
    cases Operation.ofName? name with
    | none => exact .unknown rfl rfl never
    | some op => exact .neither (status_of_reported (reported_matrixAnswer op request)) known never
  | system =>
    obtain ⟨request, read⟩ := Option.isSome_iff_exists.mp typed
    rw [respond, onBody, read]
    exact .neither (status_of_reported (reported_systemAnswer request)) known never
  | compare =>
    obtain ⟨request, read⟩ := Option.isSome_iff_exists.mp typed
    rw [respond, onBody, read]
    exact .neither (status_of_reported (reported_comparisonAnswer request)) known never
  | documentation => cases typed

/-! ## Responses -/

/-- A request for a route that answers its method is passed on to the route. -/
theorem respond_eq {method : String} {address : Address} {route : Route} (body : Json)
    (found : Route.ofAddress? address = some route) (answered : route.answers method = true) :
    respond method address (some body) = route.respond body := by
  delta respond
  rw [found]
  exact if_pos answered

/-- Where the inverse of a matrix is asked for. -/
def inverseAddress : Address :=
  ⟨"http", true, "localhost", "/api/matrix/inverse"⟩

/-- A matrix that has no inverse. -/
def singularBody : Json :=
  .object [("matrix", .string "[1, 2; 2, 4]")]

end ExactAlgebra.Service
