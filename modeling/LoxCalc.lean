import LoxCalc.Main
import LoxCalc.Command.Check
import LoxCalc.Proofs.Expr.Faults
import LoxCalc.Proofs.Expr.Kinds
import LoxCalc.Proofs.Expr.FirstFault
import LoxCalc.Proofs.Parser.Exactness
import LoxCalc.Proofs.Parser.EarliestFault
import LoxCalc.Proofs.Parser.Height
import LoxCalc.Proofs.Parser.Agreement
import LoxCalc.Proofs.Parser.Relocation
import LoxCalc.Proofs.Parser.Progress
import LoxCalc.Proofs.Parser.Recovery
import LoxCalc.Proofs.Parser.Machine.FirstBoundary
import LoxCalc.Proofs.Scan.Lossless
import LoxCalc.Proofs.Lexeme.LongestMatch
import LoxCalc.Proofs.Text.Lines
import LoxCalc.Proofs.Text.Unlines
import LoxCalc.Proofs.Unicode.Boundary
import LoxCalc.Proofs.Scan.Lines
import LoxCalc.Proofs.Scan.Join
import LoxCalc.Proofs.Scan.Spaced
import LoxCalc.Proofs.Session.Fresh
import LoxCalc.Proofs.Session.Outcome
import LoxCalc.Proofs.Session.OneLine
import LoxCalc.Proofs.Session.MovedDown
import LoxCalc.Proofs.Session.History
import LoxCalc.Proofs.Session.Parenthesized
import LoxCalc.Proofs.Session.Printed
import LoxCalc.Proofs.Session.Concatenation
import LoxCalc.Proofs.Session.Rendered
import LoxCalc.Proofs.Command.Script
import LoxCalc.Proofs.Command.Prompt
import LoxCalc.Proofs.Sample.Verdict
import LoxCalc.Proofs.Sample.Annotation
import LoxCalc.Proofs.Sample.Satisfiable
import LoxCalc.Proofs.Sample.Screen
import LoxCalc.Proofs.Sample.Accounting
import LoxCalc.Proofs.Sample.Coherence
import LoxCalc.Proofs.Sample.Totals
