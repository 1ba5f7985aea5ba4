import LoxCalc.Proofs.Expr.Faults
import LoxCalc.Proofs.Session.OneLine

/-!
# The parser and the evaluator agree on the language

The parser and the evaluator have their tables of operators apart from each other. Every tree that
the grammar derives is supported by the evaluator (`Derives.supported`), and the operators in it are
tokens of the word it was derived from (`Derives.operator_mem`). So the evaluation of a tree that a
call of `parse` returned can fail only for the sake of operands, at a token that the call consumed
(`eval_of_parse`). If the tokens come from a source, that token stands on the line that the fault
names (`Scan.standsIn_of_mem_tokens`).
-/

namespace LoxCalc

/-! ## Trees of the grammar -/

/-- The operator of an operation. -/
def Expr.operator? : Expr → Option Token
  | .unary operator _ | .binary _ operator _ => some operator
  | _ => none

namespace Grammar

/-- The operators of a tree are tokens of its word. -/
theorem Derives.operator_mem {s : Symbol} {word : List Token} {e node : Expr} {t : Token}
    (h : Derives s word e) (hnode : Expr.Within node e) (ht : node.operator? = some t) :
    t ∈ word := by
  -- The word of a node is that of its operands and, in between or in front, its operator.
  induction h with
  | operand _ ih | primary _ ih => exact ih hnode
  | binary _ _ _ ihl ihr =>
    rw [List.mem_append, List.mem_cons]
    cases hnode with
    | self => exact .inr (.inl (Option.some.inj ht).symm)
    | left hleft => exact .inl (ihl hleft)
    | right hright => exact .inr (.inr (ihr hright))
  | unary _ _ ih =>
    rw [List.mem_cons]
    cases hnode with
    | self => exact .inl (Option.some.inj ht).symm
    | unary hoperand => exact .inr (ih hoperand)
  | trueWord _ | falseWord _ | nilWord _ | carried _ _ =>
    cases hnode
    cases ht
  | grouping _ _ _ ih =>
    cases hnode with
    | self => cases ht
    | grouping hinner =>
      apply List.mem_append_left
      exact List.mem_cons_of_mem _ (ih hinner)

end Grammar

/-- A fault at an operator of a tree names that operator. -/
theorem RuntimeFault.AtOperatorOf.exists_within {e : Expr} {f : RuntimeFault}
    (h : f.AtOperatorOf e) : ∃ node, Expr.Within node e ∧ node.operator? = some f.token := by
  unfold AtOperatorOf at h
  split at h
  · obtain ⟨-, operand, hnode⟩ := h
    exact ⟨_, hnode, rfl⟩
  · obtain ⟨-, left, right, hnode⟩ := h
    exact ⟨_, hnode, rfl⟩
  · obtain ⟨-, left, right, hnode⟩ := h
    exact ⟨_, hnode, rfl⟩
  · cases h
  · cases h

/-- A fault at an operator is at no string and no end. -/
theorem RuntimeFault.AtOperatorOf.kind_ne {e : Expr} {f : RuntimeFault} (h : f.AtOperatorOf e) :
    f.token.kind ≠ .string ∧ f.token.kind ≠ .eof := by
  have hnumeric : ∀ kind ∈ Expr.numericOperators, kind ≠ .string ∧ kind ≠ .eof := by decide
  -- The cause of the fault says which operators can have it.
  unfold AtOperatorOf at h
  split at h
  · rw [h.1]
    decide
  · exact hnumeric _ h.1
  · rw [h.1]
    decide
  · cases h
  · cases h

/-! ## Tokens of a source -/

open Unicode (Cluster)

/-- The token is one of the source, and its line is the line of the source that it stands on: one
more than the line feeds before it. -/
def Token.StandsIn (source : String) (t : Token) : Prop :=
  ∃ before l after, Lexeme.all (Cluster.segment source.toList) = before ++ l :: after ∧
    (Scan.ofSource source).tokens[(before.filterMap Lexeme.token?).length]? = some t ∧
    l.text = t.lexeme ∧ t.line = 1 + (Lexeme.chars before).count '\n' ∧
    Text.OnLine source t.line (Lexeme.chars before ++ t.lexeme.toList)

/-- A scanned token that is no string stands on its line. -/
theorem Scan.standsIn_of_mem_tokens {source : String} {t : Token}
    (ht : t ∈ (ofSource source).tokens) (hkind : t.kind ≠ .string) : t.StandsIn source := by
  obtain ⟨i, hi⟩ := List.mem_iff_getElem?.mp ht
  have hfind : ((located 1 (Lexeme.all (Cluster.segment source.toList))).filterMap tokenAt?)[i]? =
      some t := by
    rw [ofSource, ofClusters, ofLexemes_eq] at hi
    exact hi
  obtain ⟨before, l, after, hall, hindex, htoken⟩ :=
    (lineFeedsApart_segment source.toList).exists_of_filterMap hfind
  obtain ⟨htoken, hline⟩ := of_tokenAt?_eq_some htoken
  obtain ⟨hlabel, htext⟩ := Lexeme.token?_eq_some_iff.mp htoken
  rw [(length_filterMap_located 1 before).1] at hindex
  have hchars : Lexeme.chars (before ++ [l]) = Lexeme.chars before ++ t.lexeme.toList := by
    simp [Lexeme.chars, htext]
  have honLine := Lexeme.onLine_of_all_eq (Cluster.flatten_segment source.toList) hall hlabel
  dsimp only at hline
  rw [← hline, hchars] at honLine
  -- The token itself ends no line.
  have hlf : '\n' ∉ t.lexeme.toList :=
    not_mem_of_isPrintable (isPrintable_of_mem_tokens ht hkind) (by decide)
  rw [hchars, List.count_append, List.count_eq_zero_of_not_mem hlf, Nat.add_zero] at hline
  exact ⟨before, l, after, hall, hindex ▸ hi, htext, hline, honLine⟩

namespace Parser

/-- Every tree that any call of `parse` on any token list returns is supported by the evaluator, so
that its evaluation fails only at an operator of the tree with a cause that belongs to the operator.
The operator is a token that the call consumed and, if the tokens were scanned, the fault names the
line that the operator stands on. -/
theorem eval_of_parse (ts : List Token) (calls : Nat) (e : Expr)
    (h : ((ofTokens ts).after calls).parse.1 = .ok e) :
    e.Supported ∧ ∀ f, e.eval = .error f → f.AtOperatorOf e ∧
      f.token ∈ (withEof ts).extract (((ofTokens ts).after calls).cursor ts)
        (((ofTokens ts).after (calls + 1)).cursor ts) ∧
      ∀ source, ts = (Scan.ofSource source).allTokens → f.token.StandsIn source := by
  have hreached := reached_after ts calls
  obtain ⟨word, hpending, hderives, -, -⟩ := (parse_eq_ok_iff hreached.kind_eof).mp ⟨h, rfl⟩
  have hword : (withEof ts).extract (((ofTokens ts).after calls).cursor ts)
      (((ofTokens ts).after (calls + 1)).cursor ts) = word :=
    hreached.extract_of_pending hpending
  have hsupported := hderives.supported
  refine ⟨hsupported, fun f hf => ?_⟩
  have hfault := hsupported.atOperator hf
  obtain ⟨node, hnode, hoperator⟩ := hfault.exists_within
  have hmem : f.token ∈ word := hderives.operator_mem hnode hoperator
  refine ⟨hfault, hword ▸ hmem, ?_⟩
  rintro source rfl
  -- The word was pending from the start, where there are only tokens of the source.
  have hsource : f.token ∈ (Scan.ofSource source).allTokens := by
    have hpending' : f.token ∈ (ofTokens (Scan.ofSource source).allTokens).pending := by
      apply hreached.pending_suffix.subset
      rw [hpending]
      exact List.mem_append_left _ hmem
    exact (List.takeWhile_sublist _).subset hpending'
  rcases List.mem_append.mp hsource with htoken | heof
  · exact Scan.standsIn_of_mem_tokens htoken hfault.kind_ne.1
  · have hkind : f.token.kind = .eof := by
      rw [List.mem_singleton.mp heof]
      rfl
    exact absurd hkind hfault.kind_ne.2

/-- Behind a parenthesis and a semicolon on lines of their own, at which the first call fails, the
second call returns the tree of `-nil`. Its evaluation fails at the minus, on the third line. -/
theorem eval_of_parse_after_recovery :
    let minus : Token := ⟨.minus, "-", none, 3⟩
    let ts := (Scan.ofSource "(\n;\n-nil").allTokens
    ((ofTokens ts).after 1).parse.1 = .ok (.unary minus (.literal .nil)) ∧
      (Expr.unary minus (.literal .nil)).eval = .error ⟨.operandMustBeNumber, minus⟩ ∧
      minus ∈ (withEof ts).extract (((ofTokens ts).after 1).cursor ts)
        (((ofTokens ts).after 2).cursor ts) ∧
      minus.StandsIn "(\n;\n-nil" := by
  intro minus ts
  have hts : (Scan.ofSource "(\n;\n-nil").allTokens = [⟨.leftParen, "(", none, 1⟩,
      ⟨.semicolon, ";", none, 2⟩, minus, ⟨.nilWord, "nil", none, 3⟩, .eof 3] := by cbv
  have hparse : ((ofTokens ts).after 1).parse.1 = .ok (.unary minus (.literal .nil)) := by
    unfold ts
    rw [hts]
    cbv
  have heval : (Expr.unary minus (.literal .nil)).eval = .error ⟨.operandMustBeNumber, minus⟩ :=
    rfl
  obtain ⟨-, hfault⟩ := eval_of_parse ts 1 _ hparse
  obtain ⟨-, hmem, hstands⟩ := hfault _ heval
  exact ⟨hparse, heval, hmem, hstands _ rfl⟩

end Parser

end LoxCalc
