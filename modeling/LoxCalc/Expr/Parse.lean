import LoxCalc.Expr
import LoxCalc.Fault

/-!
# Parsing expressions

The grammar has four levels of binary operators, each a left-associative chain of operands of the
next tighter level, then prefix operators, then literals and parenthesized expressions. A parser
holds the tokens it has not consumed yet and the token that ends them. It parses one expression at a
time; after a fault it skips to the next place where a statement could begin.

Groupings and prefix operators nest at most `maxNesting` deep along any path. The parsing functions
take the room that is left for them and return what they leave unconsumed, which is shorter than
what they were given by the type of `Outcome`.
-/

namespace LoxCalc

/-- The most groupings and prefix operators that may enclose each other. -/
def maxNesting : Nat := 100

/-- The levels of binary operators. -/
inductive Level where
  | equality
  | comparison
  | term
  | factor
  deriving DecidableEq, Repr

namespace Level

/-- Whether a token of the given kind is an operator of the level. -/
def hasOperator : Level → TokenKind → Bool
  | .equality, kind => kind = .bangEqual || kind = .equalEqual
  | .comparison, kind =>
    kind = .greater || kind = .greaterEqual || kind = .less || kind = .lessEqual
  | .term, kind => kind = .minus || kind = .plus
  | .factor, kind => kind = .slash || kind = .star

/-- How many levels bind at least as tightly. -/
def height : Level → Nat
  | .equality => 4
  | .comparison => 3
  | .term => 2
  | .factor => 1

end Level

/-- Whether a token of the given kind is a prefix operator. -/
def TokenKind.isUnaryOperator (kind : TokenKind) : Bool :=
  kind = .bang || kind = .minus

namespace Expr

/-- What parsing a part of an expression gives: its tree and the tokens behind it, fewer than
`bound`, or a fault and the tokens that were not consumed before it. -/
inductive Outcome (bound : Nat) where
  | tree (e : Expr) (rest : List Token) (shorter : rest.length < bound)
  | fault (f : GrammarFault) (rest : List Token)

namespace Outcome

/-- The outcome under a larger bound. -/
def widen {m n : Nat} (h : m ≤ n) : Outcome m → Outcome n
  | .tree e rest shorter => .tree e rest (Nat.lt_of_lt_of_le shorter h)
  | .fault f rest => .fault f rest

/-- The outcome with its tree put into a larger one. -/
def map {n : Nat} (wrap : Expr → Expr) : Outcome n → Outcome n
  | .tree e rest shorter => .tree (wrap e) rest shorter
  | .fault f rest => .fault f rest

/-- The fault that the next token, or the end if there is none, does not fit. -/
def unexpected {n : Nat} (cause : GrammarCause) (eof : Token) (rest : List Token) : Outcome n :=
  .fault ⟨cause, rest.headD eof⟩ rest

/-- A parenthesized expression, once its closing parenthesis is consumed. -/
def close {n : Nat} (eof : Token) : Outcome n → Outcome n
  | .tree e (t :: rest) shorter =>
    if t.kind = .rightParen then .tree (.grouping e) rest (Nat.lt_of_succ_lt shorter)
    else unexpected .expectedRightParenthesis eof (t :: rest)
  | .tree _ [] _ => unexpected .expectedRightParenthesis eof []
  | .fault f rest => .fault f rest

end Outcome

/-- The literal that a token is by itself. -/
def literalOf? (t : Token) : Option Literal :=
  match t.kind with
  | .trueWord => some .true
  | .falseWord => some .false
  | .nilWord => some .nil
  | .number | .string => t.literal
  | _ => none

mutual

/-- Parses a chain of operators of a level. -/
def parseChain (eof : Token) (level : Level) (room : Nat) (ts : List Token) :
    Outcome ts.length :=
  match parseOperand eof level room ts with
  | .tree left rest shorter =>
    (parseChainFrom eof level room left rest).widen (Nat.succ_le_of_lt shorter)
  | .fault f rest => .fault f rest
termination_by (ts.length, 2 * level.height + 1)
decreasing_by
  · exact Prod.Lex.right _ (Nat.lt_succ_self _)
  · exact Prod.Lex.left _ _ shorter

/-- Parses an operand of a level: a chain of the next tighter level, if there is one. -/
def parseOperand (eof : Token) (level : Level) (room : Nat) (ts : List Token) :
    Outcome ts.length :=
  match level with
  | .equality => parseChain eof .comparison room ts
  | .comparison => parseChain eof .term room ts
  | .term => parseChain eof .factor room ts
  | .factor => parseUnary eof room ts
termination_by (ts.length, 2 * level.height)
decreasing_by all_goals exact Prod.Lex.right _ (by decide)

/-- Parses the rest of a chain whose tree so far is `left`. -/
def parseChainFrom (eof : Token) (level : Level) (room : Nat) (left : Expr) :
    (ts : List Token) → Outcome (ts.length + 1)
  | [] => .tree left [] (Nat.lt_succ_self _)
  | operator :: ts =>
    if level.hasOperator operator.kind then
      match parseOperand eof level room ts with
      | .tree right rest shorter =>
        (parseChainFrom eof level room (.binary left operator right) rest).widen
          (Nat.le_succ_of_le (Nat.le_succ_of_le shorter))
      | .fault f rest => .fault f rest
    else .tree left (operator :: ts) (Nat.lt_succ_self _)
termination_by ts => (ts.length, 0)
decreasing_by
  · exact Prod.Lex.left _ _ (Nat.lt_succ_self _)
  · exact Prod.Lex.left _ _ (Nat.lt_succ_of_lt shorter)

/-- Parses prefix operators and what they apply to. -/
def parseUnary (eof : Token) (room : Nat) : (ts : List Token) → Outcome ts.length
  | [] => .unexpected .expectedExpression eof []
  | t :: ts =>
    if t.kind.isUnaryOperator then
      match room with
      | 0 => .fault ⟨.tooMuchNesting, t⟩ ts
      | room + 1 => ((parseUnary eof room ts).widen (Nat.le_succ _)).map (.unary t)
    else if t.kind = .leftParen then
      match room with
      | 0 => .fault ⟨.tooMuchNesting, t⟩ ts
      | room + 1 => ((parseChain eof .equality room ts).close eof).widen (Nat.le_succ _)
    else match literalOf? t with
      | some value => .tree (.literal value) ts (Nat.lt_succ_self _)
      | none =>
        -- A literal without its value is consumed before it is found missing.
        if t.kind = .number ∨ t.kind = .string then .fault ⟨.expectedExpression, t⟩ ts
        else .unexpected .expectedExpression eof (t :: ts)
termination_by ts => (ts.length, 0)
decreasing_by all_goals exact Prod.Lex.left _ _ (Nat.lt_succ_self _)

end

end Expr

/-- A parser: the tokens it has not consumed, none of them the end, and the end. -/
structure Parser where
  pending : List Token
  eof : Token

namespace Parser

/-- The parser of a token list. Its first end token ends it; a list without one ends on the line of
its last token. -/
def ofTokens (ts : List Token) : Parser where
  pending := ts.takeWhile (·.kind != .eof)
  eof := (ts.find? (·.kind == .eof)).getD (.eof ((ts.getLast?.map Token.line).getD 1))

/-- What is left of tokens behind `previous` from the first place where a statement could begin:
behind a semicolon, or at a word that opens a statement. -/
def skipStatement : Token → List Token → List Token
  | _, [] => []
  | previous, t :: ts =>
    if previous.kind = .semicolon ∨ t.kind.startsStatement then t :: ts else skipStatement t ts

/-- What is left of tokens after a fault: at least one of them is skipped, if there is one. -/
def recover : List Token → List Token
  | [] => []
  | t :: ts => skipStatement t ts

/-- Parses one expression, and leaves the parser behind it, or behind the statement with the
fault. -/
def parse (p : Parser) : Except GrammarFault Expr × Parser :=
  match Expr.parseChain p.eof .equality maxNesting p.pending with
  | .tree e rest _ => (.ok e, { p with pending := rest })
  | .fault f rest => (.error f, { p with pending := recover rest })

end Parser

end LoxCalc
