import ExactAlgebra.Text.Digit
import ExactAlgebra.Text.Split

/-!
# Arguments of a command line

A command line has operands and options. Options begin with two dashes, may be shortened as long as
it is clear which one is meant, and take their value from the next argument or from behind an equals
sign; a pair of dashes there leaves them without a value. Negative numbers and arguments with a
blank in them are operands even if they begin with a dash, and so is everything behind a lone pair
of dashes.

## Main definitions

* `OptionForm`, `OperandForm` — what a command accepts;
* `Word`, `classify` — what an argument is;
* `Operand` — the value of an operand;
* `Matched`, `matchWords` — operands and options of a list of words.
-/

namespace ExactAlgebra.Command

open ExactAlgebra.Text

/-! ## Forms -/

/-- **What an option does**: it asks for help, it is set, or it has a value, from a list unless the
list is empty. -/
inductive OptionKind where
  | help
  | flag
  | value (choices : List String)
  deriving DecidableEq

/-- **An option**, with its full spelling. Of the exclusive options of a command only one may be
given. -/
structure OptionForm where
  spelling : String
  kind : OptionKind
  exclusive : Bool
  deriving DecidableEq

/-- **An operand**; its value is from a list unless the list is empty. -/
structure OperandForm where
  choices : List String
  deriving DecidableEq

/-- **Why there is no command**: help was asked for, or the arguments are wrong. -/
inductive Refusal where
  | help
  | wrong
  deriving DecidableEq

/-- The two spellings of the request for help. -/
def helpOptions : List OptionForm :=
  [⟨"-h", .help, false⟩, ⟨"--help", .help, false⟩]

/-! ## Words -/

/-- **What an argument is**: the pair of dashes in front of operands, an operand, an option with the
value behind its equals sign, or something that looks like an option. -/
inductive Word where
  | separator
  | operand (text : String)
  | option (form : OptionForm) (attached : Option String)
  | unknown
  deriving DecidableEq

/-- Whether a text is a negative number, as it can be typed for an operand. A line end behind it
does not count. -/
def isNegativeNumber (cs : List Char) : Bool :=
  let body := if cs.getLast? = some '\n' then cs.dropLast else cs
  match body with
  | '-' :: digits =>
    let whole := digits.takeWhile isDigit
    match digits.dropWhile isDigit with
    | [] => whole ≠ []
    | '.' :: places => places ≠ [] && places.all isDigit
    | _ => false
  | _ => false

/-- The parts in front of and behind the first equals sign. -/
def splitValue (s : String) : String × Option String :=
  match splitFrom ['='] 0 [] s.toList with
  | head :: part :: parts =>
    (String.ofList head, some ("=".intercalate ((part :: parts).map String.ofList)))
  | _ => (s, none)

/-- Whether a text begins with another one. -/
def begins (start s : String) : Bool :=
  start.toList.isPrefixOf s.toList

/-- The options that a shortened spelling can mean, each with its attached value. -/
def abbreviated (options : List OptionForm) (s : String) : List Word :=
  if begins "--" s then
    let (start, attached) := splitValue s
    (options.filter fun form => begins start form.spelling).map (.option · attached)
  else
    let short := String.ofList (s.toList.take 2)
    (options.filter fun form => form.spelling = short).map fun form =>
      .option form (some (String.ofList (s.toList.drop 2)))

/-- The option with exactly the given spelling. -/
def spelled? (options : List OptionForm) (s : String) : Option OptionForm :=
  options.find? (·.spelling = s)

/-- What an argument is that is no option in full spelling. -/
def classifyOther (options : List OptionForm) (s : String) : Except Refusal Word :=
  match abbreviated options s with
  | [word] => .ok word
  | [] =>
    if isNegativeNumber s.toList || ' ' ∈ s.toList then .ok (.operand s) else .ok .unknown
  | _ => .error .wrong

/-- **What an argument is.** A shortened option that can mean several is refused. -/
def classify (options : List OptionForm) (s : String) : Except Refusal Word :=
  if ! begins "-" s then .ok (.operand s)
  else
    match spelled? options s with
    | some form => .ok (.option form none)
    | none =>
      if s = "-" then .ok (.operand s)
      else
        match splitValue s with
        | (spelling, some value) =>
          match spelled? options spelling with
          | some form => .ok (.option form (some value))
          | none => classifyOther options s
        | _ => classifyOther options s

/-- **What the arguments are.** Behind the first pair of dashes all are operands. -/
def classifyAll (options : List OptionForm) : List String → Except Refusal (List Word)
  | [] => .ok []
  | s :: rest =>
    if s = "--" then .ok (.separator :: rest.map .operand)
    else do
      let word ← classify options s
      let words ← classifyAll options rest
      return word :: words

/-! ## Matching -/

/-- **The value of an operand.** A pair of dashes that is an operand by itself leaves nothing. -/
inductive Operand where
  | given (text : String)
  | nothing
  deriving DecidableEq

/-- The value that an option is left with: a pair of dashes behind its equals sign is none. -/
def optionValue (value : String) : Option String :=
  if value = "--" then none else some value

/-- **What was found**: the operands in order, the options in order with their values, and whether
there is something that does not belong. -/
structure Matched where
  operands : List Operand
  options : List (OptionForm × Option String)
  surplus : Bool

namespace Matched

/-- Nothing yet. -/
def empty : Matched where
  operands := []
  options := []
  surplus := false

/-- With one more operand in front. -/
def withOperand (m : Matched) (operand : Operand) : Matched :=
  { m with operands := operand :: m.operands }

/-- With one more option in front. -/
def withOption (m : Matched) (form : OptionForm) (value : Option String) : Matched :=
  { m with options := (form, value) :: m.options }

/-- With something that does not belong. -/
def withSurplus (m : Matched) : Matched :=
  { m with surplus := true }

/-- Whether an option was given. -/
def has (m : Matched) (spelling : String) : Bool :=
  m.options.any fun entry => entry.1.spelling = spelling

/-- The value of an option; the last one counts. -/
def value? (m : Matched) (spelling : String) : Option String :=
  (((m.options.filter fun entry => entry.1.spelling = spelling).getLast?).bind (·.2)).bind
    optionValue

end Matched

/-- Refuses a value that is not among the choices. -/
def checkChoice (choices : List String) (operand : Operand) : Except Refusal Unit :=
  match choices, operand with
  | [], _ => .ok ()
  | _, .nothing => .error .wrong
  | several, .given s => if s ∈ several then .ok () else .error .wrong

/-- Refuses an exclusive option beside another one. -/
def checkExclusive (seen : List OptionForm) (form : OptionForm) : Except Refusal Unit :=
  if form.exclusive && seen.any (fun other => other.exclusive && other ≠ form) then .error .wrong
  else .ok ()

/-- The effect of a request for help with an attached text: the short spelling may be repeated. -/
def helpRefusal (form : OptionForm) (attached : Option String) : Refusal :=
  match attached with
  | none => .help
  | some s =>
    if form.spelling = "-h" && s ≠ "" && s.toList.all (· = 'h') then .help else .wrong

/-- Refuses an option that is not allowed behind those that were given, with the value that it
has. -/
def checkOption (seen : List OptionForm) (form : OptionForm) (value : Option String) :
    Except Refusal Unit :=
  match form.kind, value with
  | .help, _ => .error (helpRefusal form value)
  | .flag, none => checkExclusive seen form
  | .flag, some _ => .error .wrong
  | .value _, none => .error .wrong
  | .value choices, some s => do
    checkChoice (if optionValue s = none then [] else choices) (.given s)
    checkExclusive seen form

/-- Whether the value of an option is the next argument. -/
def needsOperand (form : OptionForm) (attached : Option String) : Bool :=
  match form.kind with
  | .value _ => attached.isNone
  | _ => false

/-- The operand of an argument without a pair of dashes in front of it or behind it. -/
def loneOperand (s : String) : Operand :=
  if s = "--" then .nothing else .given s

/-- **Matches words with the forms of a command**, from left to right. `seen` holds the options
found so far. Operands that are still missing at the end are refused. -/
def matchWords (operands : List OperandForm) (seen : List OptionForm) :
    List Word → Except Refusal Matched
  | [] => if operands = [] then .ok .empty else .error .wrong
  | .unknown :: rest => (matchWords operands seen rest).map (·.withSurplus)
  | .separator :: .operand s :: rest =>
    match operands with
    | [] => (matchWords [] seen rest).map (·.withSurplus)
    | form :: forms => do
      checkChoice form.choices (.given s)
      (matchWords forms seen rest).map (·.withOperand (.given s))
  | .separator :: rest => (matchWords operands seen rest).map (·.withSurplus)
  | .operand s :: .separator :: rest =>
    match operands with
    | [] => (matchWords [] seen rest).map (·.withSurplus)
    | form :: forms => do
      checkChoice form.choices (.given s)
      (matchWords forms seen rest).map (·.withOperand (.given s))
  | .operand s :: rest =>
    match operands with
    | [] => (matchWords [] seen rest).map (·.withSurplus)
    | form :: forms => do
      checkChoice form.choices (loneOperand s)
      (matchWords forms seen rest).map (·.withOperand (loneOperand s))
  | .option form attached :: .operand s :: rest =>
    if needsOperand form attached then do
      checkOption seen form (some s)
      (matchWords operands (form :: seen) rest).map (·.withOption form (some s))
    else do
      checkOption seen form attached
      (matchWords operands (form :: seen) (.operand s :: rest)).map (·.withOption form attached)
  | .option form attached :: rest => do
    checkOption seen form attached
    (matchWords operands (form :: seen) rest).map (·.withOption form attached)
termination_by words => words.length

end ExactAlgebra.Command
