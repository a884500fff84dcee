import ExactAlgebra.Equation.Trail
import ExactAlgebra.Numbered.Operation
import ExactAlgebra.Numbered.System
import ExactAlgebra.Service.Path
import ExactAlgebra.Service.Request
import ExactAlgebra.Text.Capital

/-!
# The service

Computations as answers to requests. A request names what it wants by a path and brings its
arguments in a JSON body. Success has status 200, what is wrong with the input has status 400 and
the wording of the library, and a body of the wrong form has status 422 and no words.

## Main definitions

* `Response` — a status and a body;
* `Route`, `Route.ofPath?` — what a path asks for;
* `Route.ofAddress?` — what is asked for at an address;
* `respond` — the response to a request.
-/

namespace ExactAlgebra.Service

open ExactAlgebra.Text

/-! ## Responses -/

/-- **A response.** -/
structure Response where
  status : Nat
  body : Option Json

/-- A response that explains itself. -/
def explained (status : Nat) (detail : String) : Response :=
  ⟨status, some (.object [("detail", .string detail)])⟩

/-- The response to a body of the wrong form. -/
def malformed : Response :=
  ⟨422, none⟩

/-- The response to a computation. What is not meant for the person at the other end is a failure of
the service. -/
def respondWith (r : Except Error Json) : Response :=
  match r with
  | .ok body => ⟨200, some body⟩
  | .error e =>
    if e.isReported then explained 400 e.message
    else explained 500 ("Solver error: " ++ e.message)

/-! ## Bodies of responses -/

/-- A text. -/
def textJson (s : String) : Json :=
  .string s

/-- A list of texts. -/
def textsJson (texts : List String) : Json :=
  .array (texts.map .string)

/-- The texts of the entries of a matrix. -/
def entriesJson (a : Mat) : Json :=
  .array (a.texts.map textsJson)

/-- A natural number. -/
def natJson (n : Nat) : Json :=
  .int n

/-- A step of a trail. -/
def trailStepJson (s : TrailStep) : Json :=
  .object [("description", textJson s.description), ("expression", textJson s.expression),
    ("explanation", textJson s.explanation)]

/-- A trail. -/
def trailJson (t : Trail) : Json :=
  .object [("equation", textJson t.typed), ("steps", .array (t.steps.map trailStepJson)),
    ("final_answer", textJson t.answer),
    ("verification_steps", .array (t.verification.map trailStepJson))]

/-- The steps of a journal, numbered from `n` on. -/
def journalJson (n : Nat) : Journal → List Json
  | [] => []
  | s :: rest =>
    .object [("step_number", natJson n), ("kind", textJson s.kind.name),
      ("description", textJson s.description), ("expression", textJson s.matrix.text)]
      :: journalJson (n + 1) rest

/-- The result of an operation. -/
def outcomeJson : Outcome → Json
  | .matrix a => entriesJson a
  | other => textJson other.text

/-- The texts of the entries of a column. -/
def columnJson (a : Mat) (j : Nat) : Except Error Json := do
  return textsJson ((← a.column j).map Rational.text)

/-- The solution of a system. The particular solution is the first column of its matrix. -/
def systemJson (s : SystemSolution) : Except Error Json := do
  let particular ← if s.isSolvable then columnJson s.particular 0 else pure .null
  let basis ← (List.range s.homogeneous.cols).mapM (columnJson s.homogeneous)
  return .object [("solution_type", textJson s.solutionType.name),
    ("coefficient_rank", .int s.info.coefficientRank),
    ("augmented_rank", .int s.info.augmentedRank),
    ("particular", particular),
    ("basis", .array basis),
    ("description", textJson s.description)]

/-- The weights that express one set of vectors through another. -/
def representationJson (r : Representation) : Json :=
  .object [("representable", .bool r.representable), ("unique", .bool r.unique),
    ("coefficients", (r.coefficients.map entriesJson).getD .null)]

/-- Two sets of vectors compared. -/
def comparisonJson (c : Comparison) : Json :=
  .object [("a_represents_b", representationJson c.firstRepresentsSecond),
    ("b_represents_a", representationJson c.secondRepresentsFirst),
    ("equivalent", .bool c.equivalent)]

/-! ## Computations -/

/-- An answer to a text that must not be blank; `what` names it in the refusal. -/
def onText (what : String) (typed : String) (compute : String → Except Error Json) : Response :=
  if trim typed = "" then explained 400 (what ++ " cannot be empty.")
  else respondWith (compute (trim typed))

/-- An expression with the answer to it. -/
def expressionJson (expression : String) (answer : Except Error String) : Except Error Json :=
  answer.map fun result =>
    .object [("expression", textJson expression), ("result", textJson result)]

/-- The answer to a request for an operation. A journal is kept if the steps are asked for. -/
def matrixAnswer (op : Operation) (r : MatrixRequest) : Except Error Json := do
  let a ← r.matrix.matrix
  let (outcome, journal) ←
    Numbered.perform op r.strategy a (if r.steps then some [] else none)
  return .object [("operation", textJson op.name), ("result", outcomeJson outcome),
    ("steps", .array (journalJson 1 (journal.getD [])))]

/-- The answer to a request to solve a system. -/
def systemAnswer (r : SystemRequest) : Except Error Json := do
  let a ← r.coefficients.matrix
  let b ← r.right.vector
  systemJson (← Numbered.solve a b.toColumn)

/-- The answer to a request to compare. -/
def comparisonAnswer (r : PairRequest) : Except Error Json := do
  let a ← r.first.matrix
  let b ← r.second.matrix
  return comparisonJson (← Numbered.compare a b)

/-! ## Routes -/

/-- **What a path asks for**: a computation, or a page of the documentation, which takes no
arguments. -/
inductive Route where
  | simplify
  | factor
  | solve
  | matrix (operation : String)
  | system
  | compare
  | documentation
  deriving DecidableEq

namespace Route

/-- The paths of the routes without a parameter. -/
def fixedPaths : List (String × Route) :=
  [("/openapi.json", documentation), ("/docs", documentation),
   ("/docs/oauth2-redirect", documentation), ("/redoc", documentation),
   ("/api/simplify", simplify), ("/api/factor", factor), ("/api/solve", solve),
   ("/api/system", system), ("/api/vecset", compare)]

/-- **The route of a path.** A line end behind a fixed path does not matter; the name of an
operation is all behind the last slash. -/
def ofPath? (path : String) : Option Route :=
  match splitOn "/" path with
  | ["", "api", "matrix", operation] => if operation = "" then none else some (matrix operation)
  | _ =>
    (fixedPaths.find? fun entry => path = entry.1 ∨ path = entry.1 ++ "\n").map (·.2)

/-- The text without slashes at its end. -/
def withoutTrailingSlashes (text : String) : String :=
  String.ofList (text.toList.reverse.dropWhile (· = '/')).reverse

/-- The route of an address. If there is none because of slashes at the end of the path, the
request is sent on to the path without them; there are at most `fuel` addresses. -/
def find? (fuel : Nat) (address : Address) : Option Route :=
  match fuel with
  | 0 => none
  | fuel + 1 =>
    let path := address.requested
    let shorter := withoutTrailingSlashes path
    match ofPath? path with
    | some route => some route
    | none =>
      if shorter = path ∨ (ofPath? shorter).isNone then none else find? fuel (.ofPath shorter)

/-- **The route of an address.** Every address that a request is sent on to has a shorter path. -/
def ofAddress? (address : Address) : Option Route :=
  find? (address.path.length + 2) address

end Route

/-- The response to a request for an operation that there is not. -/
def unknownOperation (name : String) : Response :=
  explained 404
    ("Unknown matrix operation '" ++ name ++ "'. Available: "
      ++ ", ".intercalate (Operation.all.map (·.name)) ++ ".")

/-- The response to a request whose body has to be read first. -/
def onBody {α : Type} (read : Json → Option α) (body : Json) (answer : α → Response) : Response :=
  match read body with
  | some request => answer request
  | none => malformed

/-- The response to a method that a path does not answer. -/
def notAllowed : Response :=
  explained 405 "Method Not Allowed"

/-- The response to a request with a body. -/
def Route.respond (route : Route) (body : Json) : Response :=
  match route with
  | simplify => onBody (readTextBody "expression") body fun typed =>
      onText "Expression" typed fun s => expressionJson s (simplifyText s)
  | factor => onBody (readTextBody "expression") body fun typed =>
      onText "Expression" typed fun s => expressionJson s (factorText s)
  | solve => onBody (readTextBody "equation") body fun typed =>
      onText "Equation" typed fun s => (Trail.ofText s).map trailJson
  | matrix name => onBody readMatrixRequest body fun request =>
      match Operation.ofName? name with
      | some op => respondWith (matrixAnswer op request)
      | none => unknownOperation name
  | system => onBody readSystemRequest body fun request => respondWith (systemAnswer request)
  | compare => onBody readPairRequest body fun request => respondWith (comparisonAnswer request)
  | documentation => notAllowed

/-- Whether a route answers a method: a computation answers `POST`, in any case of its letters. -/
def Route.answers (route : Route) (method : String) : Bool :=
  route ≠ documentation && inCapitals method = "POST"

/-- **The response to a request.** A path has to be known before the method matters, and a request
without a body is malformed. -/
def respond (method : String) (address : Address) (body : Option Json) : Response :=
  match Route.ofAddress? address with
  | none => explained 404 "Not Found"
  | some route =>
    if route.answers method then
      match body with
      | some value => route.respond value
      | none => malformed
    else notAllowed

end ExactAlgebra.Service
