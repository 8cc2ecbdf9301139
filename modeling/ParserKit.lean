import ParserKit.Text.Blank
import ParserKit.Text.Digit
import ParserKit.Text.Printable
import ParserKit.Text.Quoted
import ParserKit.Decimal.Double
import ParserKit.Decimal.Nearest
import ParserKit.Decimal.Literal
import ParserKit.Decimal.Shortest
import ParserKit.Fault
import ParserKit.Expr.Basic
import ParserKit.Value.Basic
import ParserKit.Value.Arithmetic
import ParserKit.Value.Display
import ParserKit.Parser.Event
import ParserKit.Parser.Step
import ParserKit.Parser.Basic
import ParserKit.Parser.Run
import ParserKit.Parser.Leaf
import ParserKit.Parser.Sequence
import ParserKit.Parser.Choice
import ParserKit.Parser.Repeat
import ParserKit.Grammar.RunLength
import ParserKit.Grammar.Json
import ParserKit.Grammar.Formula
import ParserKit.Grammar.Library
import ParserKit.Expr.Transformer
import ParserKit.Expr.Evaluator
import ParserKit.Expr.Recipe
import ParserKit.Blueprint.Mapping
import ParserKit.Blueprint.Basic
import ParserKit.CommandLine.Arguments
import ParserKit.CommandLine.Basic
import ParserKit.Main
import ParserKit.Proofs.Parser.Answer
import ParserKit.Proofs.Parser.Nesting
import ParserKit.Proofs.Language.Basic
import ParserKit.Proofs.Language.Reading
import ParserKit.Proofs.Parser.Lexical
import ParserKit.Proofs.Parser.Suffix
import ParserKit.Proofs.Language.Repetition
import ParserKit.Proofs.Formula.Grammar
import ParserKit.Proofs.Formula.Chain
import ParserKit.Proofs.Formula.Numeral
import ParserKit.Proofs.Formula.Layers
import ParserKit.Proofs.Formula.Reading
import ParserKit.Proofs.Json.Grammar
import ParserKit.Proofs.Json.Entries
import ParserKit.Proofs.Json.Blank
import ParserKit.Proofs.Json.Scalar
import ParserKit.Proofs.Json.Container
import ParserKit.Proofs.Json.Reading
import ParserKit.Proofs.RunLength.Runs
import ParserKit.Proofs.RunLength.RoundTrip
import ParserKit.Proofs.Grammar.Suffix
import ParserKit.Proofs.Run.Follow
import ParserKit.Proofs.Run.Agreement
import ParserKit.Proofs.Run.Likeness
import ParserKit.Proofs.Parser.Alike
import ParserKit.Proofs.Parser.Sameness
import ParserKit.Proofs.Event.Bracket
import ParserKit.Proofs.Event.Balance
import ParserKit.Proofs.Event.Log
import ParserKit.Proofs.Script.Life
import ParserKit.Proofs.Script.Binds
import ParserKit.Proofs.Parser.Renaming
import ParserKit.Proofs.Expr.Traversal
import ParserKit.Proofs.Expr.Calls
import ParserKit.Proofs.Parser.Descent
import ParserKit.Proofs.Grammar.Depth
import ParserKit.Proofs.CommandLine.Arguments
import ParserKit.Proofs.CommandLine.Debug
import ParserKit.Proofs.Parser.Repetition
import ParserKit.Proofs.RunLength.Code
import ParserKit.Proofs.RunLength.Encoding
import ParserKit.Proofs.RunLength.Canonical
import ParserKit.Proofs.Expr.Evaluation
import ParserKit.Proofs.Formula.Derivation
import ParserKit.Proofs.Formula.Caret
import ParserKit.Proofs.Formula.Spine
import ParserKit.Proofs.Expr.Cells
import ParserKit.Proofs.Parser.Outcome
import ParserKit.Proofs.Parser.Separation
import ParserKit.Proofs.Parser.Alternatives
import ParserKit.Proofs.Parser.Sequencing
import ParserKit.Proofs.Parser.Integer
import ParserKit.Proofs.Parser.Counted
import ParserKit.Proofs.Parser.Lexeme
import ParserKit.Proofs.Text.Quoted
import ParserKit.Proofs.Value.Limit
import ParserKit.Proofs.Value.Spelling
import ParserKit.Proofs.CommandLine.Output
