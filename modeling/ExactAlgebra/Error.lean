import ExactAlgebra.Rational.Text

/-!
# What can go wrong

Every operation of the library that can fail answers an `Error`. A constructor names a cause and
carries the values that the cause is about; the wording is in one function, `Error.message`, and the
class of a cause, which is what a caller branches on, in another, `Error.kind`.

## Main definitions

* `ErrorKind` — the classes of failure;
* `Error` — the causes;
* `Error.kind`, `Error.message` — class and wording of a cause;
* `Error.isReported` — the classes whose wording is meant for the person who typed the input;
* `Error.checkLength` — the refusal of a list that is too long.
-/

namespace ExactAlgebra

open ExactAlgebra.Text
open ExactAlgebra.Rational (text)

/-- **The classes of failure.** -/
inductive ErrorKind where
  /-- Malformed input, a zero denominator, a wrong shape. -/
  | invalidArgument
  /-- Division by an exact zero. -/
  | divisionByZero
  /-- Well formed, but outside what can be represented exactly. -/
  | domain
  /-- A matrix without an inverse. -/
  | notInvertible
  /-- A value that a setting or a request may not have. -/
  | badValue
  /-- A row, column or position that is not there. -/
  | outOfRange
  /-- A name or a record that is not stored. -/
  | missingKey
  /-- A stored value of a type that the operation cannot use. -/
  | wrongType
  /-- A stored value without the part that the operation asks for. -/
  | missingPart
  /-- A number too large to count with. -/
  | overflow
  /-- More entries than there is room for. -/
  | memory
  /-- A file that cannot be opened. -/
  | file
  /-- An address that nothing can be sent to. -/
  | address
  deriving DecidableEq

/-- **The causes of failure.** Arguments named `shown` are the text of a value, as it appears in the
message. -/
inductive Error where
  -- numbers
  | zeroDenominator
  | zeroDenominatorIn (text : String)
  | emptyNumber
  | notRational (text : String)
  | truthValue (shown : String)
  | notExact (shown : String)
  | notInteger (shown : String)
  | divisionByZero
  | tooLargeToFactor (n : Nat)
  | divisorsOfZero
  -- radicals
  | negativeRadicand (radicand : Rat)
  | irrational (shown : String)
  | unlikeRadicals (left right : String)
  | radicalOverZero (shown : String)
  | fractionalPower (shown : String) (exponent : Rat)
  | negativePowerOfZero
  | nonPositivePowerOfZero
  | powerNotReal (base exponent : Rat)
  | powerNotExact (base exponent : Rat)
  -- polynomials
  | severalVariables (names : List String)
  | notConstant (shown : String)
  | irrationalCoefficients
  | unnaturalPowers
  | divisionBySeveralTerms (shown : String)
  | negativePolynomialPower
  | fractionalCoefficientPower (shown : String) (exponent : Rat)
  | severalTermsPower (shown : String) (exponent : Rat)
  | constantOverLinear (shown : String)
  | notARoot (root : Rat) (shown : String) (remainder : Rat)
  | coefficientCount (needed given : Nat)
  -- expressions and equations
  | invalidCharacter (c : Char)
  | emptyExpression
  | expected (wanted : String) (found : Option String) (text : String)
  | unexpectedToken (token text : String)
  | unexpectedEnd (text : String)
  | missingExponent (text : String)
  | exponentNotRational (shown : String)
  | severalEqualsSigns
  | missingSide
  | irrationalEquation
  | unnaturalEquation
  | blankExpression
  | blankEquation
  | longExpression (limit : Nat)
  -- matrices
  | negativeSize (rows cols : Int)
  | raggedRows
  | notBracketed (text : String)
  | noEntries
  | notSquare (operation : String) (rows cols : Nat)
  | rowOutOfRange (row : Int) (rows : Nat)
  | columnOutOfRange (column : Int) (cols : Nat)
  | rowLength (row : Int) (needed given : Nat)
  | newRowLength (needed given : Nat)
  | newColumnLength (needed given : Nat)
  | unlikeShapes (operation : String) (rows cols otherRows otherCols : Nat)
  | unlikeFactors (rows cols otherRows otherCols : Nat)
  | augmentRows (rows otherRows : Nat)
  | columnCount (count : Int) (cols : Nat)
  | columnOutside (column : Int) (cols : Nat)
  | zeroScale
  | noPivot (column : Nat)
  | zeroDeterminant
  | unknownStrategy (shown : String)
  -- vectors, systems, vector sets
  | notVector (text : String) (rows cols : Nat)
  | unlikeSizes (operation : String) (size other : Nat)
  | crossSize
  | zeroVector
  | noEntryAt
  | noEntryToSet
  | indexTooLarge
  | notColumn (rows cols : Nat)
  | systemRows (rows other : Nat)
  | setSizes (rows other : Nat)
  | zeroTarget
  -- records and results
  | badEscape (tail : String)
  | missingDimensions
  | entryCount (rows cols : Int) (count : Nat)
  | notSolution
  | unknownSolutionType (shown : String)
  | corruptSolution (reason : String)
  | notStorable (typeName : String)
  | malformedRecord (tag : String)
  -- the store and the commands
  | badName (name : String)
  | nothingStored (name : String)
  | noRecord (id : String)
  | ambiguousRecord (start : String) (count : Nat)
  | missingField (field : String)
  | noSeparator (line : Nat) (path : String)
  | nothingSaved (name : String)
  | noHistoryEntry (start : String)
  | unknownLevel (level : String)
  | unusableValue (explanation : String)
  | noSuchPart (explanation : String)
  | notFinite (explanation : String)
  | infinityAsInteger
  | listTooLong
  | noRoom
  | nullInPath
  | noFile (path : String)
  | notDirectory (path : String)
  | isDirectory (path : String)
  | longName (path : String)
  -- addresses of requests
  | longAddress
  | controlCharacter (shown : String) (position : Nat)
  | pathStart (start : String)
  | unknownScheme (scheme : String)
  deriving DecidableEq

namespace Error

/-- **The class of a cause.** -/
def kind : Error → ErrorKind
  | divisionByZero | radicalOverZero _ | negativePowerOfZero | nonPositivePowerOfZero | zeroScale
  | zeroVector => .divisionByZero
  | tooLargeToFactor _ | negativeRadicand _ | irrational _ | unlikeRadicals _ _
  | fractionalPower _ _ | powerNotReal _ _ | powerNotExact _ _ | severalVariables _ | notConstant _
  | irrationalCoefficients | unnaturalPowers | divisionBySeveralTerms _ | negativePolynomialPower
  | fractionalCoefficientPower _ _ | severalTermsPower _ _ | constantOverLinear _ | notARoot _ _ _
  | exponentNotRational _ | irrationalEquation | unnaturalEquation => .domain
  | noPivot _ | zeroDeterminant => .notInvertible
  | blankExpression | blankEquation | longExpression _ | notInteger _ | unknownSolutionType _
  | unknownLevel _ | notFinite _ | nullInPath | coefficientCount _ _ => .badValue
  | rowOutOfRange _ _ | columnOutOfRange _ _ | noEntryAt | noEntryToSet
  | indexTooLarge => .outOfRange
  | nothingStored _ | noRecord _ | missingField _ | unknownScheme _ => .missingKey
  | unusableValue _ => .wrongType
  | noSuchPart _ => .missingPart
  | infinityAsInteger | listTooLong => .overflow
  | noRoom => .memory
  | noFile _ | notDirectory _ | isDirectory _ | longName _ => .file
  | longAddress | controlCharacter _ _ | pathStart _ => .address
  | _ => .invalidArgument

/-- The shape of a matrix, `2x3`. -/
def shape (rows cols : Nat) : String :=
  natText rows ++ "x" ++ natText cols

/-- **The wording of a cause.** -/
def message : Error → String
  | zeroDenominator => "Denominator cannot be zero."
  | zeroDenominatorIn s => "Denominator cannot be zero in '" ++ s ++ "'."
  | emptyNumber => "Empty number."
  | notRational s => "'" ++ s ++ "' is not a rational number."
  | truthValue shown => shown ++ " is not a number."
  | notExact shown =>
    shown ++ " is not an exact number; use int, Fraction or a string like '3/4'."
  | notInteger shown => "invalid literal for int() with base 10: " ++ shown
  | divisionByZero => "Division by zero."
  | tooLargeToFactor n => natText n ++ " is too large to factor exactly (limit 1000000000000)."
  | divisorsOfZero => "Zero has no finite set of divisors."
  | negativeRadicand q => "Cannot take the square root of a negative number (" ++ text q ++ ")."
  | irrational shown => shown ++ " is not a rational number."
  | unlikeRadicals a b => "Cannot combine " ++ a ++ " and " ++ b ++ ": the radicands differ."
  | radicalOverZero shown => "Cannot divide " ++ shown ++ " by zero."
  | fractionalPower shown e =>
    "Cannot raise " ++ shown ++ " to the fractional power " ++ text e ++ "."
  | negativePowerOfZero => "0 cannot be raised to a negative power."
  | nonPositivePowerOfZero => "0 cannot be raised to a non-positive power."
  | powerNotReal b e => text b ++ "^(" ++ text e ++ ") is not a real number."
  | powerNotExact b e =>
    text b ++ "^(" ++ text e ++ ") has no exact value; only square roots are supported."
  | severalVariables names =>
    "Multi-variable polynomials are not supported (found " ++ ", ".intercalate names ++ ")."
  | notConstant shown => "'" ++ shown ++ "' is not a constant."
  | irrationalCoefficients => "Only polynomials with rational coefficients can be factored."
  | unnaturalPowers => "Only non-negative integer powers can be factored."
  | divisionBySeveralTerms shown =>
    "Division by '" ++ shown ++ "' is not supported; divide by a single term."
  | negativePolynomialPower =>
    "Only non-negative integer powers of a polynomial are supported."
  | fractionalCoefficientPower shown e =>
    "Cannot raise the coefficient " ++ shown ++ " to the fractional power " ++ text e ++ "."
  | severalTermsPower shown e =>
    "'" ++ shown ++ "' has several terms and can only be raised to a "
      ++ "non-negative integer power (got " ++ text e ++ ")."
  | constantOverLinear shown => "Cannot divide the constant '" ++ shown ++ "' by a linear factor."
  | notARoot r shown remainder =>
    text r ++ " is not a root of '" ++ shown ++ "' (remainder " ++ text remainder ++ ")."
  | coefficientCount needed given =>
    if given < needed then
      "not enough values to unpack (expected " ++ natText needed ++ ", got " ++ natText given ++ ")"
    else "too many values to unpack (expected " ++ natText needed ++ ")"
  | invalidCharacter c =>
    "Invalid character '" ++ String.singleton c ++ "'. Only letters, numbers, "
      ++ "sqrt and the symbols + - * / ^ ( ) are allowed."
  | emptyExpression => "Expression is empty."
  | expected wanted found s =>
    let place := match found with
      | some token => "'" ++ token ++ "'"
      | none => "end of input"
    "Expected '" ++ wanted ++ "' but found " ++ place ++ " in '" ++ s ++ "'."
  | unexpectedToken token s => "Unexpected '" ++ token ++ "' in '" ++ s ++ "'."
  | unexpectedEnd s => "Unexpected end of input in '" ++ s ++ "'."
  | missingExponent s => "Missing exponent after '^' in '" ++ s ++ "'."
  | exponentNotRational shown => "The exponent '" ++ shown ++ "' must be a rational constant."
  | severalEqualsSigns => "An equation must contain exactly one '='."
  | missingSide => "Both sides of the equation need an expression."
  | irrationalEquation => "Equations with irrational coefficients cannot be solved."
  | unnaturalEquation => "Only non-negative integer powers can be solved."
  | blankExpression => "Expression cannot be empty."
  | blankEquation => "Equation cannot be empty."
  | longExpression limit => "Expression is too long (limit " ++ natText limit ++ " characters)."
  | negativeSize r c => "Invalid matrix size " ++ intText r ++ "x" ++ intText c ++ "."
  | raggedRows => "All matrix rows must have the same length."
  | notBracketed s => "A matrix must be written in brackets, got '" ++ s ++ "'."
  | noEntries => "A matrix needs at least one entry."
  | notSquare operation r c => operation ++ " needs a square matrix, got " ++ shape r c ++ "."
  | rowOutOfRange i n => "Row " ++ intText i ++ " is out of range for " ++ natText n ++ " rows."
  | columnOutOfRange j n =>
    "Column " ++ intText j ++ " is out of range for " ++ natText n ++ " columns."
  | rowLength i needed given =>
    "Row " ++ intText i ++ " needs " ++ natText needed ++ " entries, got " ++ natText given ++ "."
  | newRowLength needed given =>
    "A new row needs " ++ natText needed ++ " entries, got " ++ natText given ++ "."
  | newColumnLength needed given =>
    "A new column needs " ++ natText needed ++ " entries, got " ++ natText given ++ "."
  | unlikeShapes operation r c r' c' =>
    "Cannot " ++ operation ++ " a " ++ shape r c ++ " matrix and a " ++ shape r' c' ++ " matrix."
  | unlikeFactors r c r' c' =>
    "Cannot multiply a " ++ shape r c ++ " matrix by a " ++ shape r' c' ++ " matrix."
  | augmentRows r r' =>
    "Cannot augment a matrix with " ++ natText r ++ " rows by one with " ++ natText r' ++ " rows."
  | columnCount n cols =>
    "Cannot take " ++ intText n ++ " columns of a " ++ natText cols ++ "-column matrix."
  | columnOutside j cols =>
    "Column " ++ intText j ++ " is outside a " ++ natText cols ++ "-column matrix."
  | zeroScale => "A row cannot be scaled by zero."
  | noPivot column =>
    "The matrix is not invertible: column " ++ natText column ++ " has no pivot."
  | zeroDeterminant => "The matrix is not invertible: its determinant is 0."
  | unknownStrategy shown =>
    "Unknown expansion strategy '" ++ shown ++ "'; use one of first_row, optimal."
  | notVector s r c => "'" ++ s ++ "' is a " ++ shape r c ++ " matrix, not a vector."
  | unlikeSizes operation n m =>
    "Cannot " ++ operation ++ " vectors of sizes " ++ natText n ++ " and " ++ natText m ++ "."
  | crossSize => "The cross product is only defined for 3-dimensional vectors."
  | zeroVector => "The zero vector cannot be normalized."
  | noEntryAt => "list index out of range"
  | noEntryToSet => "list assignment index out of range"
  | indexTooLarge | listTooLong => "cannot fit 'int' into an index-sized integer"
  | notColumn r c => "The right-hand side must be a column, got " ++ shape r c ++ "."
  | systemRows rows other =>
    "The coefficient matrix has " ++ natText rows ++ " rows but the right-hand side has "
      ++ natText other ++ "."
  | setSizes rows other =>
    "Both vector sets need vectors of the same size (" ++ natText rows ++ " vs " ++ natText other
      ++ ")."
  | zeroTarget => "The target vector must not be the zero vector."
  | badEscape tail => "Bad escape sequence in serialized data: '\\" ++ tail ++ "'."
  | missingDimensions => "Serialized matrix is missing its dimensions."
  | entryCount r c n =>
    "Serialized " ++ intText r ++ "x" ++ intText c ++ " matrix has " ++ natText n ++ " entries."
  | notSolution => "Not a serialized equation solution."
  | unknownSolutionType shown => shown ++ " is not a valid SolutionType"
  | corruptSolution reason => "Corrupt equation solution: " ++ reason
  | notStorable typeName => "Cannot store a " ++ typeName ++ " as a result."
  | malformedRecord tag => "Unknown or malformed result record '" ++ tag ++ "'."
  | badName name =>
    "'" ++ name ++ "' is not a valid name; use letters, digits and '_' and start with a letter."
  | nothingStored name => name
  | noRecord id => id
  | missingField field => field
  | ambiguousRecord start n => "'" ++ start ++ "' matches " ++ natText n ++ " history entries."
  | noSeparator line path => "Line " ++ natText line ++ " of " ++ path ++ " has no name separator."
  | nothingSaved name => "Nothing saved under '" ++ name ++ "'."
  | noHistoryEntry start => "No history entry with id '" ++ start ++ "'."
  | unknownLevel level => "Unknown log level '" ++ level ++ "'."
  | unusableValue explanation => explanation
  | noSuchPart explanation => explanation
  | notFinite explanation => explanation
  | infinityAsInteger => "cannot convert float infinity to integer"
  | noRoom => ""
  | nullInPath => "embedded null byte"
  | noFile path => "[Errno 2] No such file or directory: " ++ path
  | notDirectory path => "[Errno 20] Not a directory: " ++ path
  | isDirectory path => "[Errno 21] Is a directory: " ++ path
  | longName path => "[Errno 36] File name too long: " ++ path
  | longAddress => "URL too long"
  | controlCharacter shown position =>
    "Invalid non-printable ASCII character in URL, " ++ shown ++ " at position "
      ++ natText position ++ "."
  | pathStart start => "Relative URLs cannot have a path starting with '" ++ start ++ "'"
  | unknownScheme scheme => scheme

/-- Whether the wording is shown as it stands to the person who typed the input. The other classes
point at the program's use or at its files, and are shown with an explanation around them. -/
def isReported (e : Error) : Bool :=
  match e.kind with
  | .invalidArgument | .divisionByZero | .domain | .notInvertible | .badValue => true
  | .outOfRange | .missingKey | .wrongType | .missingPart | .overflow | .memory | .file
  | .address => false

/-- The number of entries that no list can have. -/
def countLimit : Nat :=
  9223372036854775808

/-- The number of entries that there is no room for. -/
def roomLimit : Nat :=
  8589934592

/-- **Refuses a list that would be too long**, before it is written down. -/
def checkLength (n : Nat) : Except Error Unit :=
  if countLimit ≤ n then .error .listTooLong
  else if roomLimit ≤ n then .error .noRoom
  else .ok ()

end Error

end ExactAlgebra
