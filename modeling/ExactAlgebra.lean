import ExactAlgebra.Text.Blank
import ExactAlgebra.Text.Capital
import ExactAlgebra.Text.Digit
import ExactAlgebra.Text.Numeral
import ExactAlgebra.Text.Pattern
import ExactAlgebra.Text.Printable
import ExactAlgebra.Text.Quoted
import ExactAlgebra.Text.Split
import ExactAlgebra.Text.Utf8
import ExactAlgebra.Decimal.Binary64
import ExactAlgebra.Decimal.Shortest
import ExactAlgebra.Rational.Basic
import ExactAlgebra.Rational.Divisors
import ExactAlgebra.Rational.Integer
import ExactAlgebra.Rational.Text
import ExactAlgebra.Error
import ExactAlgebra.Json.Basic
import ExactAlgebra.Json.Parse
import ExactAlgebra.Json.Print
import ExactAlgebra.Json.Token
import ExactAlgebra.Radical.Basic
import ExactAlgebra.Radical.Power
import ExactAlgebra.Radical.SquareFree
import ExactAlgebra.Poly.Basic
import ExactAlgebra.Poly.Arithmetic
import ExactAlgebra.Poly.Power
import ExactAlgebra.Poly.Text
import ExactAlgebra.Expression.Parse
import ExactAlgebra.Expression.Scanner
import ExactAlgebra.Expression.Token
import ExactAlgebra.Factoring.Dense
import ExactAlgebra.Factoring.Factor
import ExactAlgebra.Factoring.RationalRoots
import ExactAlgebra.Equation.Basic
import ExactAlgebra.Equation.Root
import ExactAlgebra.Equation.Trail
import ExactAlgebra.Matrix.Basic
import ExactAlgebra.Matrix.Cell
import ExactAlgebra.Matrix.Edit
import ExactAlgebra.Matrix.Sheet
import ExactAlgebra.Matrix.Grid
import ExactAlgebra.Matrix.Operation
import ExactAlgebra.Matrix.Text
import ExactAlgebra.Elimination.Determinant
import ExactAlgebra.Elimination.Inverse
import ExactAlgebra.Elimination.Journal
import ExactAlgebra.Elimination.Reduction
import ExactAlgebra.Elimination.RowOperation
import ExactAlgebra.Elimination.Worksheet
import ExactAlgebra.Cofactor.Adjugate
import ExactAlgebra.Cofactor.Expansion
import ExactAlgebra.Matrix.Recorded
import ExactAlgebra.Matrix.Spectrum
import ExactAlgebra.Vector.Basic
import ExactAlgebra.System.Basic
import ExactAlgebra.System.Span
import ExactAlgebra.Numbered.Elimination
import ExactAlgebra.Numbered.Cofactor
import ExactAlgebra.Numbered.Operation
import ExactAlgebra.Numbered.System
import ExactAlgebra.Numbered.Record
import ExactAlgebra.Command.Session
import ExactAlgebra.Record.Field
import ExactAlgebra.Record.Matrix
import ExactAlgebra.Record.Result
import ExactAlgebra.Record.System
import ExactAlgebra.Store.Database
import ExactAlgebra.Store.History
import ExactAlgebra.Store.NamedResult
import ExactAlgebra.Store.Place
import ExactAlgebra.Store.Session
import ExactAlgebra.Store.Workspace
import ExactAlgebra.Command.Basic
import ExactAlgebra.Command.Argument
import ExactAlgebra.Command.LogLevel
import ExactAlgebra.Command.Run
import ExactAlgebra.Service.Basic
import ExactAlgebra.Service.Path
import ExactAlgebra.Service.Request
import ExactAlgebra.Main
import ExactAlgebra.Proofs.Error.Run
import ExactAlgebra.Proofs.Error.Reported
import ExactAlgebra.Proofs.Text.Numeral
import ExactAlgebra.Proofs.Text.Split
import ExactAlgebra.Proofs.Rational.Content
import ExactAlgebra.Proofs.Rational.Divisors
import ExactAlgebra.Proofs.Rational.Marks
import ExactAlgebra.Proofs.Rational.SquareRoot
import ExactAlgebra.Proofs.Rational.Text
import ExactAlgebra.Proofs.Decimal.Rounding
import ExactAlgebra.Proofs.Decimal.Shortest
import ExactAlgebra.Proofs.Json.Number
import ExactAlgebra.Proofs.Json.Token
import ExactAlgebra.Proofs.Json.WellFormed
import ExactAlgebra.Proofs.Json.RoundTrip
import ExactAlgebra.Proofs.Json.Shape
import ExactAlgebra.Proofs.Radical.Arithmetic
import ExactAlgebra.Proofs.Radical.Canonical
import ExactAlgebra.Proofs.Radical.Power
import ExactAlgebra.Proofs.Radical.Rational
import ExactAlgebra.Proofs.Radical.Real
import ExactAlgebra.Proofs.Radical.Simplest
import ExactAlgebra.Proofs.Radical.Sum
import ExactAlgebra.Proofs.Poly.Coefficients
import ExactAlgebra.Proofs.Poly.Evaluation
import ExactAlgebra.Proofs.Poly.Natural
import ExactAlgebra.Proofs.Poly.Real
import ExactAlgebra.Proofs.Poly.Represents
import ExactAlgebra.Proofs.Poly.Single
import ExactAlgebra.Proofs.Poly.Rearranged
import ExactAlgebra.Proofs.Poly.Text
import ExactAlgebra.Proofs.Expression.Derivation
import ExactAlgebra.Proofs.Expression.Faults
import ExactAlgebra.Proofs.Expression.Grammar
import ExactAlgebra.Proofs.Expression.Lexing
import ExactAlgebra.Proofs.Expression.Lossless
import ExactAlgebra.Proofs.Expression.Meaning
import ExactAlgebra.Proofs.Expression.Natural
import ExactAlgebra.Proofs.Expression.Reading
import ExactAlgebra.Proofs.Expression.Scanner
import ExactAlgebra.Proofs.Expression.Unambiguous
import ExactAlgebra.Proofs.Expression.Writing
import ExactAlgebra.Proofs.Factoring.Multiple
import ExactAlgebra.Proofs.Factoring.Product
import ExactAlgebra.Proofs.Factoring.RationalRoots
import ExactAlgebra.Proofs.Factoring.Text
import ExactAlgebra.Proofs.Factoring.Value
import ExactAlgebra.Proofs.Factoring.LinearDivision
import ExactAlgebra.Proofs.Equation.Quadratic
import ExactAlgebra.Proofs.Radical.Root
import ExactAlgebra.Proofs.Radical.IntegerRoot
import ExactAlgebra.Proofs.Radical.ExactPower
import ExactAlgebra.Proofs.Radical.Cancellation
import ExactAlgebra.Proofs.Vector.Norm
import ExactAlgebra.Proofs.Equation.RationalRoots
import ExactAlgebra.Proofs.Equation.Roots
import ExactAlgebra.Proofs.Factoring.Unsplit
import ExactAlgebra.Proofs.Factoring.CandidateOrder
import ExactAlgebra.Proofs.Equation.Scaling
import ExactAlgebra.Proofs.Equation.Complete
import ExactAlgebra.Proofs.Equation.Trail
import ExactAlgebra.Proofs.Matrix.Entry
import ExactAlgebra.Proofs.Elimination.Determinant
import ExactAlgebra.Proofs.Elimination.Echelon
import ExactAlgebra.Proofs.Elimination.Inverse
import ExactAlgebra.Proofs.Elimination.Rank
import ExactAlgebra.Proofs.Elimination.RowOperation
import ExactAlgebra.Proofs.Elimination.RowSpace
import ExactAlgebra.Proofs.Elimination.RowEdit
import ExactAlgebra.Proofs.Elimination.Staircase
import ExactAlgebra.Proofs.Elimination.Sweep
import ExactAlgebra.Proofs.Elimination.Worksheet
import ExactAlgebra.Proofs.Elimination.Replay
import ExactAlgebra.Proofs.Elimination.Exchanges
import ExactAlgebra.Proofs.Cofactor.Adjugate
import ExactAlgebra.Proofs.Cofactor.Expansion
import ExactAlgebra.Proofs.Matrix.Sheet
import ExactAlgebra.Proofs.Matrix.Recorded
import ExactAlgebra.Proofs.Matrix.Spectrum
import ExactAlgebra.Proofs.System.Pivot
import ExactAlgebra.Proofs.System.Reduced
import ExactAlgebra.Proofs.System.Solution
import ExactAlgebra.Proofs.System.Span
import ExactAlgebra.Proofs.Numbered.Loop
import ExactAlgebra.Proofs.Numbered.Elimination
import ExactAlgebra.Proofs.Numbered.Cofactor
import ExactAlgebra.Proofs.Cofactor.Trace
import ExactAlgebra.Proofs.Numbered.Operation
import ExactAlgebra.Proofs.Numbered.Union
import ExactAlgebra.Proofs.Numbered.System
import ExactAlgebra.Proofs.Numbered.Echelon
import ExactAlgebra.Proofs.Record.Codec
import ExactAlgebra.Proofs.Record.Field
import ExactAlgebra.Proofs.Record.Matrix
import ExactAlgebra.Proofs.Matrix.Reading
import ExactAlgebra.Proofs.Matrix.Text
import ExactAlgebra.Proofs.Vector.Text
import ExactAlgebra.Proofs.Record.Result
import ExactAlgebra.Proofs.Record.Table
import ExactAlgebra.Proofs.Record.Refused
import ExactAlgebra.Proofs.Numbered.Record
import ExactAlgebra.Proofs.Store.Database
import ExactAlgebra.Proofs.Store.Session
import ExactAlgebra.Proofs.Store.Act
import ExactAlgebra.Proofs.Store.Memory
import ExactAlgebra.Proofs.Store.Files
import ExactAlgebra.Proofs.Store.Lines
import ExactAlgebra.Proofs.Store.Recent
import ExactAlgebra.Proofs.Store.History
import ExactAlgebra.Proofs.Store.Transfer
import ExactAlgebra.Proofs.Service.Faults
import ExactAlgebra.Proofs.Service.Status
import ExactAlgebra.Proofs.Command.Session
import ExactAlgebra.Proofs.Command.Atomic
