import LoxCalc.Proofs.Grammar

/-!
# Reading a symbol of the grammar

`read eof s room ts` is what the parsing functions make of the tokens `ts` when they look for the
symbol `s`, with `room` for nesting. It drops the bounds that the outcomes carry, so that every
parsing function has one equation per case. Nothing behind this file unfolds a parsing function.

`Derives.read_eq_ok` is the longest match of a word: a word that stops is read as its tree, with
exactly what follows it left over. A chain is built from the left while its derivation takes
operators away from the right, so the induction carries `ReadsTo`, in which a chain that has been
read goes on from its tree.
-/

namespace LoxCalc

namespace Expr.Outcome

/-- An outcome without its bound: a tree and the tokens behind it, or a fault and the tokens that
were not consumed before it. -/
def result {n : Nat} : Outcome n → Except (GrammarFault × List Token) (Expr × List Token)
  | .tree e rest _ => .ok (e, rest)
  | .fault f rest => .error (f, rest)

/-- The result with a tree is the tree and what is left. -/
@[simp]
theorem result_tree {n : Nat} (e : Expr) (rest : List Token) (h : rest.length < n) :
    (tree e rest h).result = .ok (e, rest) := rfl

/-- The result with a fault is the fault and what is left. -/
@[simp]
theorem result_fault {n : Nat} (f : GrammarFault) (rest : List Token) :
    (fault f rest : Outcome n).result = .error (f, rest) := rfl

/-- A bound on what is left does not change the result. -/
@[simp]
theorem result_widen {m n : Nat} (h : m ≤ n) (o : Outcome m) : (o.widen h).result = o.result := by
  cases o <;> rfl

/-- What wraps a tree wraps the tree of the result. -/
@[simp]
theorem result_map {n : Nat} (wrap : Expr → Expr) (o : Outcome n) :
    (o.map wrap).result = o.result.map fun p => (wrap p.1, p.2) := by
  cases o <;> rfl

end Expr.Outcome

namespace Grammar

open LoxCalc.Expr (parseChain parseOperand parseChainFrom parseUnary literalOf?)

/-- What the parser makes of tokens when it looks for a symbol. A primary is looked for where a
prefix operation is. -/
def read (eof : Token) : Symbol → Nat → List Token →
    Except (GrammarFault × List Token) (Expr × List Token)
  | .chain level, room, ts => (parseChain eof level room ts).result
  | .unary, room, ts | .primary, room, ts => (parseUnary eof room ts).result

/-- What the parser makes of tokens behind a chain with the tree `left`. -/
def readFrom (eof : Token) (level : Level) (room : Nat) (left : Expr) (ts : List Token) :
    Except (GrammarFault × List Token) (Expr × List Token) :=
  (parseChainFrom eof level room left ts).result

/-- What the parser makes of the tokens behind a parenthesized expression. -/
def readClosing (eof : Token) (e : Expr) :
    List Token → Except (GrammarFault × List Token) (Expr × List Token)
  | [] => .error (⟨.expectedRightParenthesis, eof⟩, [])
  | t :: rest =>
    if t.kind = .rightParen then .ok (.grouping e, rest)
    else .error (⟨.expectedRightParenthesis, t⟩, t :: rest)

/-! ## One equation per case -/

section Equations

variable (eof : Token) (level : Level) (room : Nat) (t : Token) (ts : List Token)

/-- An operand is read by the rule below. -/
theorem result_parseOperand :
    (parseOperand eof level room ts).result = read eof (operand level) room ts := by
  cases level <;> rw [parseOperand] <;> rfl

/-- A chain is an operand and what follows it. -/
theorem read_chain : read eof (.chain level) room ts =
    (read eof (operand level) room ts).bind fun p => readFrom eof level room p.1 p.2 := by
  rw [← result_parseOperand, read, parseChain]
  cases parseOperand eof level room ts with
  | tree left rest shorter => rw [Expr.Outcome.result_widen]; rfl
  | fault f rest => rfl

/-- At the end nothing follows. -/
theorem readFrom_nil (left : Expr) : readFrom eof level room left [] = .ok (left, []) := by
  rw [readFrom, parseChainFrom]; rfl

/-- An operator of the level takes what is read for a left operand. -/
theorem readFrom_operator (left : Expr) (h : t.kind ∈ operators level) :
    readFrom eof level room left (t :: ts) = (read eof (operand level) room ts).bind fun p =>
      readFrom eof level room (.binary left t p.1) p.2 := by
  rw [← result_parseOperand, readFrom, parseChainFrom, if_pos ((hasOperator_iff _ _).mpr h)]
  cases parseOperand eof level room ts with
  | tree right rest shorter => rw [Expr.Outcome.result_widen]; rfl
  | fault f rest => rfl

/-- Any other token ends the chain. -/
theorem readFrom_stop (left : Expr) (h : t.kind ∉ operators level) :
    readFrom eof level room left (t :: ts) = .ok (left, t :: ts) := by
  rw [readFrom, parseChainFrom, if_neg (mt (hasOperator_iff _ _).mp h)]; rfl

/-- At the end there is no operand. -/
theorem read_nil : read eof .unary room [] = .error (⟨.expectedExpression, eof⟩, []) := by
  rw [read, parseUnary]; rfl

/-- Without room an operator in front of an operand nests too deeply. -/
theorem read_unary_zero (h : t.kind = .bang ∨ t.kind = .minus) :
    read eof .unary 0 (t :: ts) = .error (⟨.tooMuchNesting, t⟩, ts) := by
  rw [read, parseUnary, if_pos ((isUnaryOperator_iff _).mpr h)]; rfl

/-- With room it is put in front of the operand behind it. -/
theorem read_unary_succ (h : t.kind = .bang ∨ t.kind = .minus) :
    read eof .unary (room + 1) (t :: ts) =
      (read eof .unary room ts).map fun p => (.unary t p.1, p.2) := by
  rw [read, parseUnary, if_pos ((isUnaryOperator_iff _).mpr h)]
  rw [Expr.Outcome.result_map, Expr.Outcome.result_widen]; rfl

/-- Without room a parenthesis nests too deeply. -/
theorem read_grouping_zero (h : t.kind = .leftParen) :
    read eof .unary 0 (t :: ts) = .error (⟨.tooMuchNesting, t⟩, ts) := by
  rw [read, parseUnary, h, if_neg (by decide), if_pos rfl]; rfl

/-- With room it opens an expression that has to be closed. -/
theorem read_grouping_succ (h : t.kind = .leftParen) :
    read eof .unary (room + 1) (t :: ts) =
      (read eof expression room ts).bind fun p => readClosing eof p.1 p.2 := by
  rw [read, parseUnary, h, if_neg (by decide), if_pos rfl]
  rw [Expr.Outcome.result_widen, expression, read]
  cases parseChain eof .equality room ts with
  | tree e rest shorter =>
    cases rest with
    | nil => rfl
    | cons t rest =>
      simp only [Expr.Outcome.close, Expr.Outcome.result_tree, Except.bind, readClosing]
      split <;> rfl
  | fault f rest => rfl

/-- A literal stands for itself. -/
theorem read_literal (value : Literal) (h : literalOf? t = some value) :
    read eof .unary room (t :: ts) = .ok (.literal value, ts) := by
  -- A token with a literal is neither an operator nor a parenthesis, which would be looked for
  -- first.
  have hop : t.kind.isUnaryOperator ≠ true := by
    intro hop
    rcases (isUnaryOperator_iff _).mp hop with hk | hk <;> simp [literalOf?, hk] at h
  have hparen : t.kind ≠ .leftParen := by
    intro hk
    simp [literalOf?, hk] at h
  rw [read, parseUnary.eq_def]
  dsimp only
  rw [if_neg hop, if_neg hparen, h]; rfl

/-- A token that can begin no expression, in either of its two ways: a literal without a value is
consumed, any other token is not. -/
theorem read_unexpected (hop : ¬(t.kind = .bang ∨ t.kind = .minus)) (hparen : t.kind ≠ .leftParen)
    (h : literalOf? t = none) : read eof .unary room (t :: ts) =
      .error (⟨.expectedExpression, t⟩,
        if t.kind = .number ∨ t.kind = .string then ts else t :: ts) := by
  rw [read, parseUnary.eq_def]
  dsimp only
  rw [if_neg (mt (isUnaryOperator_iff _).mp hop), if_neg hparen, h]
  dsimp only
  split <;> rfl

end Equations

/-! ## Words are read as their trees -/

/-- The parser reads `word` as `e`: a chain then goes on from its tree, whatever follows that does
not belong to its last operand, and any other symbol leaves over what follows. -/
def ReadsTo (eof : Token) (room : Nat) : Symbol → List Token → Expr → Prop
  | .chain level, word, e => ∀ rest, Stops (operand level) rest →
    read eof (.chain level) room (word ++ rest) = readFrom eof level room e rest
  | s, word, e => ∀ rest, read eof s room (word ++ rest) = .ok (e, rest)

/-- A chain ends before tokens that do not continue it. -/
theorem readFrom_of_stops {eof : Token} {level : Level} {room : Nat} {e : Expr} {rest : List Token}
    (h : Stops (.chain level) rest) : readFrom eof level room e rest = .ok (e, rest) := by
  cases rest with
  | nil => exact readFrom_nil eof level room e
  | cons t rest =>
    rw [stops_cons, mem_continuing_chain, not_or] at h
    exact readFrom_stop eof level room t rest e h.1

/-- A word that the parser reads and that stops leaves over what follows it. -/
theorem ReadsTo.read_eq_ok {eof : Token} {room : Nat} {s : Symbol} {word rest : List Token}
    {e : Expr} (h : ReadsTo eof room s word e) (hs : Stops s rest) :
    read eof s room (word ++ rest) = .ok (e, rest) := by
  cases s with
  | chain level =>
    have hop : Stops (operand level) rest := by
      intro t ht hc
      exact hs t ht ((mem_continuing_chain level t.kind).mpr (.inr hc))
    rw [h rest hop, readFrom_of_stops hs]
  | unary | primary => exact h rest

/-- The parser reads every word, if there is room for the nesting of its tree. -/
theorem Derives.readsTo {s : Symbol} {word : List Token} {e : Expr} (h : Derives s word e)
    (eof : Token) : ∀ room, e.nesting ≤ room → ReadsTo eof room s word e := by
  induction h with
  | @operand level word e _ ih =>
    intro room hn rest hs
    rw [read_chain, (ih room hn).read_eq_ok hs]; rfl
  | @binary level word word' left right operator _ hop _ ihl ihr =>
    intro room hn rest hs
    rw [Expr.nesting_binary, Nat.max_le] at hn
    -- The operator ends the last operand of the shorter chain, which then goes on with it.
    have hstop : Stops (Grammar.operand level) (operator :: (word' ++ rest)) :=
      (stops_cons _ _ _).mpr (not_mem_continuing_operand hop)
    rw [List.append_assoc, List.cons_append, ihl room hn.1 _ hstop,
      readFrom_operator eof level room operator _ left hop, (ihr room hn.2).read_eq_ok hs]; rfl
  | @unary operator word e hop _ ih =>
    intro room hn rest
    rw [Expr.nesting_unary] at hn
    obtain ⟨room, rfl⟩ := Nat.exists_eq_add_one.mpr (Nat.zero_lt_of_lt hn)
    rw [Nat.add_le_add_iff_right] at hn
    rw [List.cons_append, read_unary_succ eof room operator _ hop, ih room hn rest]; rfl
  | primary _ ih => exact ih
  | @trueWord t hk | @falseWord t hk | @nilWord t hk =>
    intro room _ rest
    exact read_literal eof room t rest _ (by simp [literalOf?, hk])
  | @carried t value hk hv =>
    intro room _ rest
    exact read_literal eof room t rest _ (by rcases hk with hk | hk <;> simp [literalOf?, hk, hv])
  | @grouping opening closing word e ho _ hc ih =>
    intro room hn rest
    rw [Expr.nesting_grouping] at hn
    obtain ⟨room, rfl⟩ := Nat.exists_eq_add_one.mpr (Nat.zero_lt_of_lt hn)
    rw [Nat.add_le_add_iff_right] at hn
    have hstop : Stops expression (closing :: rest) := by
      rw [stops_cons, hc]
      decide
    have hread := (ih room hn).read_eq_ok hstop
    show read eof .unary (room + 1) (opening :: word ++ [closing] ++ rest) = _
    rw [List.append_assoc, List.cons_append, read_grouping_succ eof room opening _ ho,
      List.singleton_append, hread]
    simp [Except.bind, readClosing, hc]

/-- A word that stops is read as its tree, if there is room for its nesting. -/
theorem Derives.read_eq_ok {s : Symbol} {word rest : List Token} {e : Expr} {room : Nat}
    (h : Derives s word e) (hn : e.nesting ≤ room) (hs : Stops s rest) (eof : Token) :
    read eof s room (word ++ rest) = .ok (e, rest) :=
  (h.readsTo eof room hn).read_eq_ok hs

/-- The grammar is unambiguous: a word has one tree, however deep it nests. -/
theorem Derives.tree_unique {s : Symbol} {word : List Token} {e e' : Expr}
    (h : Derives s word e) (h' : Derives s word e') : e = e' := by
  -- Both trees are read from the word, with room for either of them.
  have hread := h.read_eq_ok (Nat.le_max_left e.nesting e'.nesting) (stops_nil s) (.eof 0)
  rw [h'.read_eq_ok (Nat.le_max_right e.nesting e'.nesting) (stops_nil s) (.eof 0)] at hread
  injection hread with hpair
  exact (congrArg Prod.fst hpair).symm

end Grammar

end LoxCalc
