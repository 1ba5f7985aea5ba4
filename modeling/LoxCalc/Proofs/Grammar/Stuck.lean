import LoxCalc.Proofs.Grammar

/-!
# Where a derivation gets stuck

`Stuck s room word f` says that the tokens `word` begin a word of the symbol `s`, and that the token
of the fault `f` fits nowhere behind them. Its derivations are the stacks of rules that a parser has
begun and not finished: each rule either passes on where its last part is stuck, or is stuck itself
at one of three places, at a token that begins no expression, at one that does not close a
parenthesis, or at an operator or parenthesis for which no room for nesting is left.

The rules that were begun can all be finished without the offending token (`Stuck.completes`): where
an operand is missing a literal takes its place, and every open parenthesis is closed.
-/

namespace LoxCalc.Grammar

/-- A symbol stuck behind the tokens `word`, at the token of a fault. -/
inductive Stuck : Symbol → Nat → List Token → GrammarFault → Prop
  /-- A chain stuck in its first operand. -/
  | operand {level : Level} {room : Nat} {word : List Token} {f : GrammarFault} :
    Stuck (operand level) room word f → Stuck (.chain level) room word f
  /-- A chain stuck in a later operand. -/
  | binary {level : Level} {room : Nat} {word word' : List Token} {left : Expr} {operator : Token}
    {f : GrammarFault} :
    Derives (.chain level) word left → left.nesting ≤ room → operator.kind ∈ operators level →
    Stuck (Grammar.operand level) room word' f →
    Stuck (.chain level) room (word ++ operator :: word') f
  /-- A prefix operation stuck in its operand. -/
  | unary {room : Nat} {operator : Token} {word : List Token} {f : GrammarFault} :
    operator.kind = .bang ∨ operator.kind = .minus → Stuck .unary room word f →
    Stuck .unary (room + 1) (operator :: word) f
  /-- A parenthesized expression stuck inside. -/
  | grouping {room : Nat} {opening : Token} {word : List Token} {f : GrammarFault} :
    opening.kind = .leftParen → Stuck expression room word f →
    Stuck .unary (room + 1) (opening :: word) f
  /-- A parenthesized expression with a token behind it that neither continues nor closes it. -/
  | unclosed {room : Nat} {opening t : Token} {word : List Token} {e : Expr} :
    opening.kind = .leftParen → Derives expression word e → e.nesting ≤ room →
    t.kind ∉ binaryOperators → t.kind ≠ .rightParen →
    Stuck .unary (room + 1) (opening :: word) ⟨.expectedRightParenthesis, t⟩
  /-- A prefix operator or parenthesis without room for it. -/
  | nested {t : Token} : (t.kind = .bang ∨ t.kind = .minus) ∨ t.kind = .leftParen →
    Stuck .unary 0 [] ⟨.tooMuchNesting, t⟩
  /-- A token that begins no expression. -/
  | unexpected {room : Nat} {t : Token} :
    ¬(t.kind = .bang ∨ t.kind = .minus) → t.kind ≠ .leftParen → Expr.literalOf? t = none →
    Stuck .unary room [] ⟨.expectedExpression, t⟩

/-- What a symbol is stuck behind can be completed to a word of it, within the same room. -/
theorem Stuck.completes {s : Symbol} {room : Nat} {word : List Token} {f : GrammarFault}
    (h : Stuck s room word f) :
    ∃ more e, Derives s (word ++ more) e ∧ e.nesting ≤ room := by
  -- A literal stands in for what is missing.
  have hliteral : Derives .unary [⟨.nilWord, "nil", none, 1⟩] (.literal .nil) :=
    .primary (.nilWord rfl)
  induction h with
  | operand _ ih =>
    obtain ⟨more, e, hd, hn⟩ := ih
    exact ⟨more, e, .operand hd, hn⟩
  | @binary level room word word' left operator f hl hln hop _ ih =>
    obtain ⟨more, e, hd, hn⟩ := ih
    refine ⟨more, .binary left operator e, ?_, ?_⟩
    · rw [List.append_assoc, List.cons_append]
      exact .binary hl hop hd
    · rw [Expr.nesting_binary]
      exact Nat.max_le.mpr ⟨hln, hn⟩
  | @unary room operator word f hop _ ih =>
    obtain ⟨more, e, hd, hn⟩ := ih
    refine ⟨more, .unary operator e, .unary hop hd, ?_⟩
    rw [Expr.nesting_unary]
    omega
  | @grouping room opening word f ho _ ih =>
    obtain ⟨more, e, hd, hn⟩ := ih
    refine ⟨more ++ [⟨.rightParen, ")", none, 1⟩], .grouping e, ?_, ?_⟩
    · rw [← List.append_assoc, List.cons_append]
      exact .primary (.grouping ho hd rfl)
    · rw [Expr.nesting_grouping]
      omega
  | @unclosed room opening t word e ho hd hn _ _ =>
    refine ⟨[⟨.rightParen, ")", none, 1⟩], .grouping e, .primary (.grouping ho hd rfl), ?_⟩
    rw [Expr.nesting_grouping]
    omega
  | nested _ => exact ⟨_, _, hliteral, Nat.le_refl 0⟩
  | unexpected _ _ _ => exact ⟨_, _, hliteral, Nat.zero_le _⟩

end LoxCalc.Grammar
