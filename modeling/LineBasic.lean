import LineBasic.CharStream
import LineBasic.CommandLine.Argument
import LineBasic.CommandLine.Flag
import LineBasic.CommandLine.Run
import LineBasic.CommandLine.Settings
import LineBasic.Context
import LineBasic.Cursor.Basic
import LineBasic.Cursor.Condition
import LineBasic.Cursor.Expression
import LineBasic.Cursor.Statement
import LineBasic.Fault
import LineBasic.Grammar.Basic
import LineBasic.Grammar.First
import LineBasic.Grammar.Follow
import LineBasic.Grammar.Lookahead
import LineBasic.Grammar.OfLines
import LineBasic.Grammar.Predict
import LineBasic.Grammar.Report
import LineBasic.Grammar.SetTable
import LineBasic.Grammar.SymbolSet
import LineBasic.Input.Directory
import LineBasic.Input.Environment
import LineBasic.Input.ReadError
import LineBasic.Label
import LineBasic.Line.Basic
import LineBasic.Line.Check
import LineBasic.Main
import LineBasic.Position
import LineBasic.Program
import LineBasic.Report
import LineBasic.Text.Blank
import LineBasic.Text.CodeRanges
import LineBasic.Text.DecimalDigit
import LineBasic.Text.Lines
import LineBasic.Text.Quoted
import LineBasic.Text.Unprintable
import LineBasic.Text.Utf8
import LineBasic.Text.Utf8RoundTrip
import LineBasic.Token.Basic
import LineBasic.Token.Lexeme
import LineBasic.Token.Piece
import LineBasic.Token.Sequence
import LineBasic.Token.Tag
import LineBasic.Token.Vocabulary
import LineBasic.Value
import LineBasic.Verdict
import LineBasic.Proofs.Grammar.Saturation
import LineBasic.Proofs.Grammar.Derivation
import LineBasic.Proofs.Grammar.First
import LineBasic.Proofs.Grammar.Follow
import LineBasic.Proofs.Grammar.LeastTable
import LineBasic.Proofs.Grammar.ParseForest
import LineBasic.Proofs.Grammar.Unambiguity
import LineBasic.Proofs.Cursor.Alike
import LineBasic.Proofs.Cursor.Basic
import LineBasic.Proofs.Cursor.Condition
import LineBasic.Proofs.Cursor.Statement
import LineBasic.Proofs.Layout
import LineBasic.Proofs.Line.Alike
import LineBasic.Proofs.Line.WellFormed
import LineBasic.Proofs.Program
import LineBasic.Proofs.Stopping
import LineBasic.Proofs.Token.Coverage
import LineBasic.Proofs.Token.Offset
import LineBasic.Proofs.Token.LongestMatch
import LineBasic.Proofs.Line.Place
import LineBasic.Proofs.Cursor.Backtracking
import LineBasic.Proofs.Cursor.Descent
import LineBasic.Proofs.Line.Progress
import LineBasic.Proofs.Token.Shape
import LineBasic.Proofs.Report.Rendering
import LineBasic.Proofs.Report.Sources
import LineBasic.Proofs.Cursor.Counter
import LineBasic.Proofs.Report.Contract
import LineBasic.Proofs.Diagnosis.Stage
import LineBasic.Proofs.Diagnosis.Completion
import LineBasic.Proofs.Diagnosis.Message
import LineBasic.Proofs.Diagnosis.Reading
import LineBasic.Proofs.Diagnosis.Offence
import LineBasic.Proofs.Line.SignedNumber
import LineBasic.Proofs.Line.Run
import LineBasic.Proofs.Token.Separation
import LineBasic.Proofs.Line.Composition
import LineBasic.Proofs.Diagnosis.Parentheses
import LineBasic.Proofs.Line.FewerLoops
import LineBasic.Proofs.Grammar.LeftRecursion
import LineBasic.Proofs.Phrase.Sentence
import LineBasic.Proofs.Line.Wrapping
import LineBasic.Proofs.Stream
import LineBasic.Proofs.Token.Predicates
import LineBasic.Proofs.Report.Literal
import LineBasic.Proofs.Text.StrictDecoding
import LineBasic.Proofs.Report.Unreadable
