import LoxCalc.Token

/-!
# Faults of a program

A program can fail in three stages. Each stage has its causes, and a fault is a cause with its
place: a line for lexical faults, a token for faults of grammar and of evaluation. `message` is the
text that a fault is shown as.
-/

namespace LoxCalc

/-- Why a stretch of source is no token. -/
inductive LexicalCause where
  | unexpectedCharacter
  | unterminatedString
  | invalidNumber
  deriving DecidableEq, Repr

/-- Why a token sequence is no expression. -/
inductive GrammarCause where
  | expectedExpression
  | expectedRightParenthesis
  | tooMuchNesting
  deriving DecidableEq, Repr

/-- Why an expression has no value. -/
inductive RuntimeCause where
  | operandMustBeNumber
  | operandsMustBeNumbers
  | operandsMustBeNumbersOrStrings
  | invalidOperator
  | unsupportedExpression
  deriving DecidableEq, Repr

/-- The wording of a lexical cause. -/
def LexicalCause.message : LexicalCause → String
  | .unexpectedCharacter => "Unexpected character."
  | .unterminatedString => "Unterminated string."
  | .invalidNumber => "Invalid number literal."

/-- The wording of a cause in the grammar. -/
def GrammarCause.message : GrammarCause → String
  | .expectedExpression => "Expect expression."
  | .expectedRightParenthesis => "Expect ')' after expression."
  | .tooMuchNesting => "Too much nesting."

/-- The wording of a cause in evaluation. -/
def RuntimeCause.message : RuntimeCause → String
  | .operandMustBeNumber => "Operand must be a number."
  | .operandsMustBeNumbers => "Operands must be numbers."
  | .operandsMustBeNumbersOrStrings => "Operands must be two numbers or strings."
  | .invalidOperator => "Invalid operator."
  | .unsupportedExpression => "Unsupported expression."

/-- A fault met while scanning. -/
structure LexicalFault where
  cause : LexicalCause
  line : Nat
  deriving DecidableEq

/-- A fault met while parsing, with the token that does not fit. -/
structure GrammarFault where
  cause : GrammarCause
  token : Token
  deriving DecidableEq

/-- A fault met while evaluating, with the token of the operation that failed. -/
structure RuntimeFault where
  cause : RuntimeCause
  token : Token
  deriving DecidableEq

/-- The start of every message: the line in brackets and the word Error. -/
def errorOnLine (line : Nat) : String :=
  "[line " ++ line.repr ++ "] Error"

/-- The line that shows a lexical fault. -/
def LexicalFault.message (f : LexicalFault) : String :=
  errorOnLine f.line ++ ": " ++ f.cause.message

/-- The line that shows a fault of grammar; it names the offending token, or the end. -/
def GrammarFault.message (f : GrammarFault) : String :=
  let place := if f.token.kind = .eof then " at end" else " at '" ++ f.token.lexeme ++ "'"
  errorOnLine f.token.line ++ place ++ ": " ++ f.cause.message

/-- The line that shows a fault of evaluation. -/
def RuntimeFault.message (f : RuntimeFault) : String :=
  errorOnLine f.token.line ++ ": " ++ f.cause.message

/-- A fault of any stage. -/
inductive Report where
  | lexical (f : LexicalFault)
  | grammar (f : GrammarFault)
  | runtime (f : RuntimeFault)
  deriving DecidableEq

/-- The line that shows a report. -/
def Report.message : Report → String
  | .lexical f => f.message
  | .grammar f => f.message
  | .runtime f => f.message

/-- The source line a report is about. -/
def Report.line : Report → Nat
  | .lexical f => f.line
  | .grammar f => f.token.line
  | .runtime f => f.token.line

/-- The token a report is about. -/
def Report.token? : Report → Option Token
  | .lexical _ => none
  | .grammar f => some f.token
  | .runtime f => some f.token

/-- Whether a report keeps its program from being evaluated at all. -/
def Report.isStatic : Report → Bool
  | .runtime _ => false
  | _ => true

end LoxCalc
