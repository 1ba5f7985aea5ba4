import LoxCalc.Number.Text

/-!
# Tokens

A token is a kind, the text it was scanned from, the literal it denotes if it denotes one, and the
line its text ends on. A literal is a value as a program spells it; literal expressions carry one
too.
-/

namespace LoxCalc

/-- A literal of the language. -/
inductive Literal where
  | string (s : String)
  | number (x : Float)
  | true
  | false
  | nil
  deriving DecidableEq

/-- The text of a literal: strings stand for themselves, without quotes. -/
def Literal.text : Literal → String
  | .string s => s
  | .number x => Number.text x
  | .true => "true"
  | .false => "false"
  | .nil => "nil"

/-- The kinds of tokens. -/
inductive TokenKind where
  -- punctuation of one character
  | leftParen | rightParen | leftBrace | rightBrace | comma | dot | minus | plus | semicolon
  | slash | star
  -- punctuation of one or two characters
  | bang | bangEqual | equal | equalEqual | greater | greaterEqual | less | lessEqual
  -- words and literals
  | identifier | string | number
  -- reserved words
  | andWord | classWord | elseWord | falseWord | funWord | forWord | ifWord | nilWord | orWord
  | printWord | returnWord | superWord | thisWord | trueWord | varWord | whileWord
  -- the end of the source
  | eof
  deriving DecidableEq, Repr

namespace TokenKind

/-- The name of a kind, as it is shown. -/
def name : TokenKind → String
  | .leftParen => "LeftParen"
  | .rightParen => "RightParen"
  | .leftBrace => "LeftBrace"
  | .rightBrace => "RightBrace"
  | .comma => "Comma"
  | .dot => "Dot"
  | .minus => "Minus"
  | .plus => "Plus"
  | .semicolon => "Semicolon"
  | .slash => "Slash"
  | .star => "Star"
  | .bang => "Bang"
  | .bangEqual => "BangEqual"
  | .equal => "Equal"
  | .equalEqual => "EqualEqual"
  | .greater => "Greater"
  | .greaterEqual => "GreaterEqual"
  | .less => "Less"
  | .lessEqual => "LessEqual"
  | .identifier => "Identifier"
  | .string => "String"
  | .number => "Number"
  | .andWord => "And"
  | .classWord => "Class"
  | .elseWord => "Else"
  | .falseWord => "False"
  | .funWord => "Fun"
  | .forWord => "For"
  | .ifWord => "If"
  | .nilWord => "Nil"
  | .orWord => "Or"
  | .printWord => "Print"
  | .returnWord => "Return"
  | .superWord => "Super"
  | .thisWord => "This"
  | .trueWord => "True"
  | .varWord => "Var"
  | .whileWord => "While"
  | .eof => "Eof"

/-- Every kind once. -/
def all : List TokenKind :=
  [.leftParen, .rightParen, .leftBrace, .rightBrace, .comma, .dot, .minus, .plus, .semicolon,
   .slash, .star, .bang, .bangEqual, .equal, .equalEqual, .greater, .greaterEqual, .less,
   .lessEqual, .identifier, .string, .number, .andWord, .classWord, .elseWord, .falseWord,
   .funWord, .forWord, .ifWord, .nilWord, .orWord, .printWord, .returnWord, .superWord,
   .thisWord, .trueWord, .varWord, .whileWord, .eof]

/-- The kind with the given name. -/
def ofName? (name : String) : Option TokenKind :=
  all.find? (·.name == name)

/-- The reserved words and their kinds. -/
def reserved : List (String × TokenKind) :=
  [("and", .andWord), ("class", .classWord), ("else", .elseWord), ("false", .falseWord),
   ("for", .forWord), ("fun", .funWord), ("if", .ifWord), ("nil", .nilWord), ("or", .orWord),
   ("print", .printWord), ("return", .returnWord), ("super", .superWord), ("this", .thisWord),
   ("true", .trueWord), ("var", .varWord), ("while", .whileWord)]

/-- The kind of a reserved word. -/
def ofWord? (word : String) : Option TokenKind :=
  reserved.lookup word

/-- The reserved words that open a statement. -/
def startsStatement : TokenKind → Bool
  | .classWord | .funWord | .varWord | .forWord | .ifWord | .whileWord | .printWord
  | .returnWord => true
  | _ => false

end TokenKind

/-- A token of the language. -/
structure Token where
  kind : TokenKind
  lexeme : String
  literal : Option Literal
  line : Nat
  deriving DecidableEq

/-- The token behind the last one of a source that ends on the given line. -/
def Token.eof (line : Nat) : Token :=
  ⟨.eof, "", none, line⟩

/-- The text of a token: its kind, its lexeme and its literal if there is one. -/
def Token.text (t : Token) : String :=
  t.kind.name ++ " " ++ t.lexeme ++
    match t.literal with
    | some l => " " ++ l.text
    | none => ""

end LoxCalc
