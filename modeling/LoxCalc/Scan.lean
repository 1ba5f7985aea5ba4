import LoxCalc.Lexeme

/-!
# Scans

Scanning a source gives its tokens and its lexical faults, both with lines. A lexeme lies on the
line it ends on, which is one more than the number of line ends up to and within it.
-/

namespace LoxCalc

/-- What scanning finds: the tokens without the end, the faults, and the line of the end. -/
structure Scan where
  tokens : List Token
  faults : List LexicalFault
  line : Nat
  deriving DecidableEq

namespace Scan

/-- The scan of lexemes that begin on the given line. -/
def ofLexemes (line : Nat) : List Lexeme → Scan
  | [] => ⟨[], [], line⟩
  | l :: rest =>
    let line := line + l.newlines
    let scan := ofLexemes line rest
    match l.label with
    | .token kind literal => { scan with tokens := ⟨kind, l.text, literal, line⟩ :: scan.tokens }
    | .trivia => scan
    | .fault cause => { scan with faults := ⟨cause, line⟩ :: scan.faults }

/-- The scan of the clusters of a source. -/
def ofClusters (clusters : List Unicode.Cluster) : Scan :=
  ofLexemes 1 (Lexeme.all clusters)

/-- The scan of a source. -/
def ofSource (source : String) : Scan :=
  ofClusters (Unicode.Cluster.segment source.toList)

/-- The token behind the last one. -/
def eof (scan : Scan) : Token :=
  .eof scan.line

/-- The tokens of a source, the end included. -/
def allTokens (scan : Scan) : List Token :=
  scan.tokens ++ [scan.eof]

end Scan

end LoxCalc
