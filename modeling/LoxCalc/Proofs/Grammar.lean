import LoxCalc.Expr.Parse
import LoxCalc.Proofs.Expr.Measures

/-!
# The grammar of expressions

    equality   -> comparison ( ( "!=" | "==" ) comparison )*
    comparison -> term ( ( ">" | ">=" | "<" | "<=" ) term )*
    term       -> factor ( ( "-" | "+" ) factor )*
    factor     -> unary ( ( "/" | "*" ) unary )*
    unary      -> ( "!" | "-" ) unary | primary
    primary    -> NUMBER | STRING | "true" | "false" | "nil" | "(" expression ")"

An expression is an equality. `Derives s word e` says that the symbol `s` derives the tokens `word`
with the tree `e`. The repetitions are read to the left: a chain of operators is a shorter chain, an
operator and one more operand. The relation knows neither a cursor nor a limit on nesting.

A word of a symbol ends where a token follows that cannot continue it. Only binary operators
continue a word, those of its own level and of tighter ones (`Stops`).
-/

namespace LoxCalc.Grammar

/-- The binary operators of a level. -/
def operators : Level → List TokenKind
  | .equality => [.bangEqual, .equalEqual]
  | .comparison => [.greater, .greaterEqual, .less, .lessEqual]
  | .term => [.minus, .plus]
  | .factor => [.slash, .star]

/-- The binary operators of all levels. -/
def binaryOperators : List TokenKind :=
  [.bangEqual, .equalEqual, .greater, .greaterEqual, .less, .lessEqual, .minus, .plus, .slash,
   .star]

/-- The symbols of the grammar: a chain of operators of each level, prefix operations, and
primaries. -/
inductive Symbol where
  | chain (level : Level)
  | unary
  | primary

/-- What the operators of a level stand between: chains of the next tighter level, if there is
one. -/
def operand : Level → Symbol
  | .equality => .chain .comparison
  | .comparison => .chain .term
  | .term => .chain .factor
  | .factor => .unary

/-- The symbol of whole expressions. -/
def expression : Symbol := .chain .equality

/-- The tokens that a symbol derives, with the tree of the derivation. -/
inductive Derives : Symbol → List Token → Expr → Prop
  /-- A chain without operators. -/
  | operand {level : Level} {word : List Token} {e : Expr} :
    Derives (operand level) word e → Derives (.chain level) word e
  /-- A chain with one more operator at its end. -/
  | binary {level : Level} {word word' : List Token} {left right : Expr} {operator : Token} :
    Derives (.chain level) word left → operator.kind ∈ operators level →
    Derives (Grammar.operand level) word' right →
    Derives (.chain level) (word ++ operator :: word') (.binary left operator right)
  /-- A prefix operation. -/
  | unary {operator : Token} {word : List Token} {e : Expr} :
    operator.kind = .bang ∨ operator.kind = .minus → Derives .unary word e →
    Derives .unary (operator :: word) (.unary operator e)
  /-- A primary, which no prefix operator applies to. -/
  | primary {word : List Token} {e : Expr} : Derives .primary word e → Derives .unary word e
  /-- The word for truth. -/
  | trueWord {t : Token} : t.kind = .trueWord → Derives .primary [t] (.literal .true)
  /-- The word for falsehood. -/
  | falseWord {t : Token} : t.kind = .falseWord → Derives .primary [t] (.literal .false)
  /-- The word for nothing. -/
  | nilWord {t : Token} : t.kind = .nilWord → Derives .primary [t] (.literal .nil)
  /-- A number or string that carries its literal. -/
  | carried {t : Token} {value : Literal} :
    t.kind = .number ∨ t.kind = .string → t.literal = some value →
    Derives .primary [t] (.literal value)
  /-- A parenthesized expression. -/
  | grouping {opening closing : Token} {word : List Token} {e : Expr} :
    opening.kind = .leftParen → Derives expression word e → closing.kind = .rightParen →
    Derives .primary (opening :: word ++ [closing]) (.grouping e)

/-- Every word has a token. -/
theorem Derives.word_ne_nil {s : Symbol} {word : List Token} {e : Expr} (h : Derives s word e) :
    word ≠ [] := by
  induction h with
  | operand _ ih | primary _ ih => exact ih
  | _ => simp

/-- No word holds an end of the source. -/
theorem Derives.kind_ne_eof {s : Symbol} {word : List Token} {e : Expr} (h : Derives s word e) :
    ∀ t ∈ word, t.kind ≠ .eof := by
  induction h with
  | operand _ ih | primary _ ih => exact ih
  | @binary level _ _ _ _ operator _ hop _ ihl ihr =>
    -- An end is an operator of no level.
    have hne : operator.kind ≠ .eof := by
      intro heof
      rw [heof] at hop
      cases level <;> simp [operators] at hop
    simp only [List.mem_append, List.mem_cons]
    rintro t (ht | rfl | ht)
    · exact ihl t ht
    · exact hne
    · exact ihr t ht
  | unary hop _ ih =>
    simp only [List.mem_cons]
    rintro t (rfl | ht)
    · rcases hop with hop | hop <;> rw [hop] <;> decide
    · exact ih t ht
  | trueWord hk | falseWord hk | nilWord hk => simp [hk]
  | carried hk _ => rcases hk with hk | hk <;> simp [hk]
  | grouping ho _ hc ih =>
    simp only [List.cons_append, List.mem_cons, List.mem_append, List.not_mem_nil, or_false]
    rintro t (rfl | ht | rfl)
    · rw [ho]; decide
    · exact ih t ht
    · rw [hc]; decide

/-- A word without binary operators is a chain of every level. -/
theorem Derives.chain_of_unary {word : List Token} {e : Expr} (h : Derives .unary word e)
    (level : Level) : Derives (.chain level) word e := by
  -- An operand is a chain of the innermost level, and a chain of each level is one of the next
  -- level out.
  have hfactor : Derives (.chain .factor) word e := .operand h
  have hterm : Derives (.chain .term) word e := .operand hfactor
  have hcomparison : Derives (.chain .comparison) word e := .operand hterm
  cases level with
  | equality => exact .operand hcomparison
  | comparison => exact hcomparison
  | term => exact hterm
  | factor => exact hfactor

/-! ## Where a word ends -/

/-- The operators that continue a word of a symbol. -/
def continuing : Symbol → List TokenKind
  | .chain .equality => binaryOperators
  | .chain .comparison =>
    operators .comparison ++ operators .term ++ operators .factor
  | .chain .term => operators .term ++ operators .factor
  | .chain .factor => operators .factor
  | .unary | .primary => []

/-- A word of the symbol ends before these tokens: the first of them, if there is one, does not
continue it. -/
def Stops (s : Symbol) (rest : List Token) : Prop :=
  ∀ t ∈ rest.head?, t.kind ∉ continuing s

/-- Everything stops at the end. -/
@[simp]
theorem stops_nil (s : Symbol) : Stops s [] := by
  simp [Stops]

/-- Whether it stops is for the next token to say. -/
@[simp]
theorem stops_cons (s : Symbol) (t : Token) (rest : List Token) :
    Stops s (t :: rest) ↔ t.kind ∉ continuing s := by
  simp [Stops]

/-- What continues a chain is what continues its operands, or an operator of its level. -/
theorem mem_continuing_chain (level : Level) (kind : TokenKind) :
    kind ∈ continuing (.chain level) ↔
      kind ∈ operators level ∨ kind ∈ continuing (operand level) := by
  cases level <;>
    simp only [continuing, operand, operators, binaryOperators, List.mem_append, List.mem_cons,
      List.not_mem_nil, or_false, or_assoc]

/-- The levels share no operator, so that an operator of a level does not continue an operand. -/
theorem not_mem_continuing_operand {level : Level} {kind : TokenKind} (h : kind ∈ operators level) :
    kind ∉ continuing (operand level) := by
  revert h
  cases level <;> cases kind <;> decide

/-! ## The parser's reading of single tokens -/

/-- The parser knows the operators of each level. -/
theorem hasOperator_iff (level : Level) (kind : TokenKind) :
    level.hasOperator kind = true ↔ kind ∈ operators level := by
  cases level <;> simp [Level.hasOperator, operators, or_assoc]

/-- The parser knows the prefix operators. -/
theorem isUnaryOperator_iff (kind : TokenKind) :
    kind.isUnaryOperator = true ↔ kind = .bang ∨ kind = .minus := by
  simp [TokenKind.isUnaryOperator]

/-- What the parser takes for a literal, the grammar derives as one. -/
theorem derives_of_literalOf? {t : Token} {value : Literal}
    (h : Expr.literalOf? t = some value) : Derives .primary [t] (.literal value) := by
  unfold Expr.literalOf? at h
  split at h
  · next hk => cases h; exact .trueWord hk
  · next hk => cases h; exact .falseWord hk
  · next hk => cases h; exact .nilWord hk
  · next hk => exact .carried (.inl hk) h
  · next hk => exact .carried (.inr hk) h
  · cases h

end LoxCalc.Grammar
