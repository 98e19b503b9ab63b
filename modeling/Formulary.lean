import Formulary.Binary.Basic
import Formulary.Binary.Machine
import Formulary.Binary.Shortest
import Formulary.Calculator
import Formulary.Catalog.Basic
import Formulary.Catalog.Standard
import Formulary.CompileError
import Formulary.Compiler
import Formulary.Conversion.Memo
import Formulary.Conversion.Path
import Formulary.Conversion.Search
import Formulary.Decimal.Arithmetic
import Formulary.Decimal.Basic
import Formulary.Decimal.Digits
import Formulary.Decimal.Text
import Formulary.Document.Basic
import Formulary.Document.Formula
import Formulary.Document.Json
import Formulary.Document.Number
import Formulary.Document.Options
import Formulary.Document.Plain
import Formulary.Document.Yaml
import Formulary.Document.Yaml.Cursor
import Formulary.Document.Yaml.Node
import Formulary.Document.Yaml.Scalar
import Formulary.Document.Yaml.Token
import Formulary.Engine
import Formulary.Evaluation.Arithmetic
import Formulary.Evaluation.Comparison
import Formulary.Evaluation.EntryPoint
import Formulary.Evaluation.Error
import Formulary.Evaluation.Machine
import Formulary.Evaluation.Math
import Formulary.Expr.Basic
import Formulary.Expr.Parser
import Formulary.Expr.Printer
import Formulary.Expr.Scope
import Formulary.Fault
import Formulary.Lowering.Builtin
import Formulary.Lowering.Compile
import Formulary.Lowering.Literal
import Formulary.Lowering.Operand
import Formulary.Lowering.Operation
import Formulary.Lowering.Power
import Formulary.Lowering.State
import Formulary.Lowering.Tree
import Formulary.MathFunction
import Formulary.Node
import Formulary.Operator
import Formulary.Options
import Formulary.ParseError
import Formulary.Program
import Formulary.Proofs.Calculator.Congruence
import Formulary.Proofs.Calculator.Logarithm
import Formulary.Proofs.Calculator.Power
import Formulary.Proofs.Conversion.Path
import Formulary.Proofs.Decimal.Digits
import Formulary.Proofs.Decimal.Number
import Formulary.Proofs.Decimal.Order
import Formulary.Proofs.Decimal.Rounding
import Formulary.Proofs.Evaluation.Fault
import Formulary.Proofs.Evaluation.Outcome
import Formulary.Proofs.Evaluation.Typing
import Formulary.Proofs.Expr.Names
import Formulary.Proofs.Lowering.Built
import Formulary.Proofs.Lowering.Effect
import Formulary.Proofs.Lowering.InPlay
import Formulary.Proofs.Lowering.Operand
import Formulary.Proofs.Lowering.Operation
import Formulary.Proofs.Lowering.Settle
import Formulary.Proofs.Lowering.Table
import Formulary.Proofs.Lowering.Tree
import Formulary.Proofs.Program.Arithmetic
import Formulary.Proofs.Program.Closed
import Formulary.Proofs.Program.Simplified
import Formulary.Proofs.Program.Typed
import Formulary.Proofs.Semantics.ByName
import Formulary.Proofs.Semantics.Compile
import Formulary.Proofs.Semantics.Direct
import Formulary.Proofs.Semantics.Evaluable
import Formulary.Proofs.Semantics.Fragment
import Formulary.Proofs.Semantics.Layout
import Formulary.Proofs.Semantics.Meaning
import Formulary.Proofs.Semantics.Operation
import Formulary.Proofs.Semantics.Refinement
import Formulary.Proofs.Simplify.Chain
import Formulary.Proofs.Simplify.Fold
import Formulary.Proofs.Simplify.Hygiene
import Formulary.Proofs.Simplify.Inline
import Formulary.Proofs.Simplify.Rewrite
import Formulary.Proofs.Simplify.Substitute
import Formulary.Scopes
import Formulary.Settings.Basic
import Formulary.Settings.Reading
import Formulary.Simplify.Exactness
import Formulary.Simplify.Exponent
import Formulary.Simplify.Flatten
import Formulary.Simplify.Fold
import Formulary.Simplify.Inline
import Formulary.Simplify.Pass
import Formulary.Sized
import Formulary.Span
import Formulary.SpanMap
import Formulary.Table
import Formulary.Text.Blank
import Formulary.Text.Letter
import Formulary.Text.Numeral
import Formulary.Text.Quoted
import Formulary.Text.Ranges
import Formulary.Text.Unprintable
import Formulary.Token.Basic
import Formulary.Token.Lexer
import Formulary.Ty
import Formulary.Value.Basic
import Formulary.Value.Number
import Formulary.Proofs.Lowering.Agreement
import Formulary.Proofs.Lowering.Termination
import Formulary.Proofs.Semantics.Uniform
import Formulary.Proofs.Simplify.Integers
import Formulary.Proofs.Semantics.Complete
import Formulary.Proofs.Simplify.Decimals
import Formulary.Proofs.Program.Folded
import Formulary.Proofs.Program.Inlined
import Formulary.Proofs.Expr.Grammar
import Formulary.Proofs.Expr.Reading
import Formulary.Proofs.Expr.Sound
import Formulary.Proofs.Expr.Complete
import Formulary.Proofs.Expr.Recognition
import Formulary.Proofs.Decimal.Text
import Formulary.Proofs.Token.Scan
import Formulary.Proofs.Expr.Printed
import Formulary.Proofs.Expr.RoundTrip
import Formulary.Proofs.Lowering.Alike
import Formulary.Proofs.Lowering.Grouping
import Formulary.Proofs.Program.Grouped
import Formulary.Proofs.Conversion.Chain
import Formulary.Proofs.Catalog.Subtype
import Formulary.Proofs.Catalog.Member
import Formulary.Proofs.Conversion.Inheritance
import Formulary.Proofs.Expr.Scalar
import Formulary.Proofs.Lowering.Scalar
import Formulary.Proofs.Simplify.Exponent
import Formulary.Proofs.Lowering.ScalarTree
import Formulary.Proofs.Simplify.Scalar
import Formulary.Proofs.Simplify.Restriction
import Formulary.Proofs.Program.Restricted
import Formulary.Proofs.Evaluation.Depth
import Formulary.Proofs.Simplify.Rounds
import Formulary.Proofs.Token.Slice
import Formulary.Proofs.Token.Division
import Formulary.Proofs.Expr.Closed
import Formulary.Proofs.Expr.Position
import Formulary.Proofs.Expr.Records
import Formulary.Proofs.Expr.Places
import Formulary.Proofs.Expr.Recording
import Formulary.Proofs.Expr.Retrying
import Formulary.Proofs.Expr.Spans
import Formulary.Proofs.Conversion.Linked
import Formulary.Proofs.Simplify.Normal
import Formulary.Proofs.Simplify.Flatten
import Formulary.Proofs.Simplify.Refold
import Formulary.Proofs.Simplify.Revisit
import Formulary.Proofs.Program.Guarded
import Formulary.Proofs.Lowering.Transition
import Formulary.Proofs.Lowering.Scoping
import Formulary.Proofs.Lowering.Rollback
import Formulary.Proofs.Lowering.Congruence
import Formulary.Proofs.Lowering.Renaming
import Formulary.Proofs.Program.Scoped
import Formulary.Proofs.Evaluation.Binding
import Formulary.Proofs.Conversion.Shared
import Formulary.Proofs.Calculator.Accuracy
import Formulary.Proofs.Binary.Layout
import Formulary.Proofs.Simplify.Exactness
import Formulary.Proofs.Simplify.Lossless
import Formulary.Proofs.Conversion.Coercion
import Formulary.Proofs.Evaluation.Exact
import Formulary.Proofs.Decimal.Nearest
import Formulary.Proofs.Decimal.Cut
import Formulary.Proofs.Decimal.Division
import Formulary.Proofs.Calculator.Words
import Formulary.Proofs.Evaluation.Raising
