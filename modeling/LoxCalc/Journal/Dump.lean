import LoxCalc.Journal

/-!
# The dump of a journal

A journal, with everything its reports hold, as one line of text: records as a name and their fields
in braces, alternatives as a name and their content in parentheses. A text is in double quotes:
quotes, backslashes and the usual controls are escaped by a backslash, other ASCII controls by their
code point, and all else stands for itself.
-/

namespace LoxCalc

namespace Text

/-- The escaped form of a character. -/
def escape (c : Char) : List Char :=
  if c = '"' then ['\\', '"']
  else if c = '\\' then ['\\', '\\']
  else if c = '\n' then ['\\', 'n']
  else if c = '\r' then ['\\', 'r']
  else if c = '\t' then ['\\', 't']
  else if c.toNat = 0 then ['\\', '0']
  else if c.toNat < 0x20 ∨ c.toNat = 0x7F then
    ['\\', 'u', '\x7b'] ++ Nat.toDigits 16 c.toNat ++ ['\x7d']
  else [c]

/-- A text in double quotes. -/
def quoted (text : String) : String :=
  String.ofList ('"' :: text.toList.flatMap escape ++ ['"'])

end Text

/-- The name of a lexical cause. -/
def LexicalCause.name : LexicalCause → String
  | .unexpectedCharacter => "UnexpectedCharacter"
  | .unterminatedString => "UnterminatedString"
  | .invalidNumber => "InvalidNumber"

/-- The name of a cause in the grammar. -/
def GrammarCause.name : GrammarCause → String
  | .expectedExpression => "ExpectedExpression"
  | .expectedRightParenthesis => "ExpectedRightParenthesis"
  | .tooMuchNesting => "TooMuchNesting"

/-- The name of a cause in evaluation. -/
def RuntimeCause.name : RuntimeCause → String
  | .operandMustBeNumber => "OperandMustBeNumber"
  | .operandsMustBeNumbers => "OperandsMustBeNumbers"
  | .operandsMustBeNumbersOrStrings => "OperandsMustBeNumbersOrStrings"
  | .invalidOperator => "InvalidOperator"
  | .unsupportedExpression => "UnsupportedExpression"

namespace Journal.Dump

/-- A record: its name and its fields in braces. -/
def record (name : String) (fields : List (String × String)) : String :=
  name ++ " \x7b " ++ ", ".intercalate (fields.map fun f => f.1 ++ ": " ++ f.2) ++ " \x7d"

/-- An alternative: its name and its content in parentheses. -/
def variant (name content : String) : String :=
  name ++ "(" ++ content ++ ")"

/-- A truth value. -/
def truth (b : Bool) : String :=
  if b then "true" else "false"

/-- A literal. -/
def literal : Literal → String
  | .string s => variant "String" (Text.quoted s)
  | .number x => variant "Number" (Number.dumpText x)
  | .true => "True"
  | .false => "False"
  | .nil => "Nil"

/-- A literal that may be missing. -/
def literal? : Option Literal → String
  | some l => variant "Some" (literal l)
  | none => "None"

/-- A token. -/
def token (t : Token) : String :=
  record "Token" [("token_type", t.kind.name), ("lexeme", Text.quoted t.lexeme),
    ("literal", literal? t.literal), ("line", t.line.repr)]

/-- A report. -/
def report : Report → String
  | .lexical f => variant "Lexical"
      (record "ScanError" [("line", f.line.repr), ("kind", f.cause.name)])
  | .grammar f => variant "Syntax"
      (record "ParseError" [("token", token f.token), ("kind", f.cause.name)])
  | .runtime f => variant "Runtime"
      (record "RuntimeError" [("token", token f.token), ("kind", f.cause.name)])

end Journal.Dump

/-- The journal as one line of text. -/
def Journal.dump (j : Journal) : String :=
  Dump.record "Diagnostics"
    [("reports", "[" ++ ", ".intercalate (j.reports.map Dump.report) ++ "]"),
     ("had_error", Dump.truth j.hadError), ("had_runtime_error", Dump.truth j.hadRuntimeError)]

end LoxCalc
