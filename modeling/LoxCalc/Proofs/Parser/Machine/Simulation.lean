import LoxCalc.Proofs.Parser.Machine

/-!
# The machine does what the parser does

Wherever a machine stands before tokens without an end among them, a rule gives the tree or the
fault that reading these tokens gives, stands before the tokens that reading leaves, and is as deep
in nestings as before (`follows_all`). Fuel for ten rules a token is enough, and more makes no
difference. So the machine always has a result, and calls of `parse` are the same on the machine and
on the parser (`parse_at_cursor`, `after_eq`).
-/

namespace LoxCalc.Machine

open Grammar (read readFrom)

/-- A rule does what reading did: it has the same tree or the same fault, it stands before what is
left, and it is in as many nestings as before. -/
inductive Follows (c : Cut) (depth : Nat) :
    Except (GrammarFault × List Token) (Expr × List Token) →
    Option (Except GrammarFault Expr × State) → Prop
  | ok {e : Expr} {rest : List Token} {n : Nat} : Stands c rest n →
    Follows c depth (.ok (e, rest)) (some (.ok e, .at n depth))
  | error {f : GrammarFault} {rest : List Token} {n : Nat} : Stands c rest n →
    Follows c depth (.error (f, rest)) (some (.error f, .at n depth))

section Rules

variable {c : Cut} {t : Token} {ts : List Token} {n depth room fuel : Nat}

/-- A literal is gone past. -/
theorem Stands.unary_literal (h : Stands c (t :: ts) n) {value : Literal}
    (hv : Expr.literalOf? t = some value) :
    unary c.tokens (fuel + 2) (.at n depth) = some (.ok (.literal value), .at (n + 1) depth) := by
  have hcarried (hk : t.kind = .number ∨ t.kind = .string) (hl : t.literal = some value) :
      unary c.tokens (fuel + 2) (.at n depth) = some (.ok (.literal value), .at (n + 1) depth) := by
    have hword : t.kind ∉ [.bang, .minus, .trueWord, .falseWord, .nilWord] := by
      rcases hk with hk | hk <;> simp [hk]
    simp only [List.mem_cons, List.not_mem_nil, or_false, not_or] at hword
    rw [unary, h.pass (by simp [hword]), primary, h.pass (by simp [hword]),
      h.pass (by simp [hword]), h.pass (by simp [hword]), h.take (by simp [hk]),
      bind_of_eq h.previous, hl]
    rfl
  -- The words are tried in order, and what carries a literal after them.
  unfold Expr.literalOf? at hv
  split at hv
  · next hk =>
    cases hv
    rw [unary, h.pass (by simp [hk]), primary, h.take (by simp [hk])]
    rfl
  · next hk =>
    cases hv
    rw [unary, h.pass (by simp [hk]), primary, h.pass (by simp [hk]), h.take (by simp [hk])]
    rfl
  · next hk =>
    cases hv
    rw [unary, h.pass (by simp [hk]), primary, h.pass (by simp [hk]), h.pass (by simp [hk]),
      h.take (by simp [hk])]
    rfl
  · next hk => exact hcarried (.inl hk) hv
  · next hk => exact hcarried (.inr hk) hv
  · cases hv

/-- Any other token is a fault, and is gone past only if it should have carried a literal. -/
theorem Stands.unary_unexpected (h : Stands c (t :: ts) n)
    (hop : ¬(t.kind = .bang ∨ t.kind = .minus)) (hparen : t.kind ≠ .leftParen)
    (hv : Expr.literalOf? t = none) :
    Follows c depth (read c.eof .unary room (t :: ts))
      (unary c.tokens (fuel + 2) (.at n depth)) := by
  have hword : ∀ kind ∈ [TokenKind.trueWord, .falseWord, .nilWord], t.kind ≠ kind := by
    rintro kind hkind rfl
    simp only [List.mem_cons, List.not_mem_nil, or_false] at hkind
    rcases hkind with hk | hk | hk <;> simp [Expr.literalOf?, hk] at hv
  have htrue : t.kind ≠ .trueWord := hword _ (by simp)
  have hfalse : t.kind ≠ .falseWord := hword _ (by simp)
  have hnil : t.kind ≠ .nilWord := hword _ (by simp)
  rw [Grammar.read_unexpected c.eof room t ts hop hparen hv, unary, h.pass (by simpa using hop),
    primary, h.pass (by simpa using htrue), h.pass (by simpa using hfalse),
    h.pass (by simpa using hnil)]
  -- A number or a string without a literal has been taken already when that is seen.
  by_cases hk : t.kind = .number ∨ t.kind = .string
  · have hl : t.literal = none := by
      rcases hk with hk | hk <;> simpa [Expr.literalOf?, hk] using hv
    rw [if_pos hk, h.take (by simpa using hk), bind_of_eq h.previous, hl]
    exact .error h.forward
  · rw [if_neg hk, h.pass (by simpa using hk), h.pass (by simpa using hparen), bind_of_eq h.peek]
    exact .error h

/-- What stands behind a parenthesized expression closes it, or is a fault. -/
theorem Stands.close (h : Stands c ts n) (e : Expr) :
    Follows c depth (Grammar.readClosing c.eof e ts) (close c.tokens e (.at n depth)) := by
  cases ts with
  | nil =>
    rw [Machine.close, bind_of_eq (h.check_nil .rightParen), if_neg Bool.false_ne_true,
      bind_of_eq h.peek]
    exact .error h
  | cons t ts =>
    rw [Grammar.readClosing, Machine.close, bind_of_eq (h.check .rightParen)]
    by_cases hclose : t.kind = .rightParen
    · rw [if_pos hclose, if_pos (decide_eq_true hclose), bind_of_eq h.advance]
      exact .ok h.forward
    · rw [if_neg hclose, if_neg (by simpa using hclose), bind_of_eq h.peek]
      exact .error h

variable {result : Except (GrammarFault × List Token) (Expr × List Token)}
  {rule : Action (Except GrammarFault Expr)} {s : State}

/-- A rule that goes on with the tree of another one follows reading that does so. -/
theorem Follows.bind (h : Follows c depth result (rule s))
    {more : Expr × List Token → Except (GrammarFault × List Token) (Expr × List Token)}
    {next : Expr → Action (Except GrammarFault Expr)}
    (hnext : ∀ e rest n, result = .ok (e, rest) → Stands c rest n →
      Follows c depth (more (e, rest)) (next e (.at n depth))) :
    Follows c depth (result.bind more)
      ((do match ← rule with | .ok e => next e | .error f => return .error f) s) := by
  generalize hrun : rule s = answer at h
  obtain ⟨hrest⟩ | ⟨hrest⟩ := h
  · rw [bind_of_eq hrun]
    exact hnext _ _ _ rfl hrest
  · rw [bind_of_eq hrun]
    exact .error hrest

/-- The nesting around a rule is left, whatever the rule gives. -/
theorem Follows.leave (h : Follows c (depth + 1) result (rule s))
    {result' : Except (GrammarFault × List Token) (Expr × List Token)}
    {next : Except GrammarFault Expr → Action (Except GrammarFault Expr)}
    (hnext : ∀ r n, Follows c depth result (some (r, .at n depth)) →
      Follows c depth result' (next r (.at n depth))) :
    Follows c depth result' ((do let r ← rule; leave; next r) s) := by
  -- Whichever way the rule went, the level that it ran in is left.
  generalize hrun : rule s = answer at h
  obtain ⟨hrest⟩ | ⟨hrest⟩ := h
  · rw [bind_of_eq hrun, bind_of_eq leave_at]
    exact hnext _ _ (.ok hrest)
  · rw [bind_of_eq hrun, bind_of_eq leave_at]
    exact hnext _ _ (.error hrest)

/-- Every rule does what reading does, wherever it stands. A token takes at most ten rules. -/
theorem follows_all (c : Cut) :
    (∀ level room ts, ∀ fuel n depth, Stands c ts n → depth + room = maxNesting →
      10 * ts.length + 2 * level.height + 2 ≤ fuel →
      Follows c depth (read c.eof (.chain level) room ts)
        (chain c.tokens level fuel (.at n depth))) ∧
    (∀ level room left ts, ∀ fuel n depth, Stands c ts n → depth + room = maxNesting →
      10 * ts.length + 1 ≤ fuel →
      Follows c depth (readFrom c.eof level room left ts)
        (chainFrom c.tokens level left fuel (.at n depth))) ∧
    (∀ level room ts, ∀ fuel n depth, Stands c ts n → depth + room = maxNesting →
      10 * ts.length + 2 * level.height + 1 ≤ fuel →
      Follows c depth (read c.eof (Grammar.operand level) room ts)
        (operand c.tokens level fuel (.at n depth))) ∧
    ∀ room ts, ∀ fuel n depth, Stands c ts n → depth + room = maxNesting →
      10 * ts.length + 2 ≤ fuel →
      Follows c depth (read c.eof .unary room ts) (unary c.tokens fuel (.at n depth)) := by
  have hresult {level room ts o} (h : Expr.parseOperand c.eof level room ts = o) :
      read c.eof (Grammar.operand level) room ts = o.result := by
    rw [← Grammar.result_parseOperand, h]
  have hheight (level : Level) : level.height ≤ 4 := by
    cases level <;> decide
  -- The machine's rules call each other as the parsing functions do, so that their recursion
  -- carries the induction. The fuel goes down by one from rule to rule, the bound by one at least.
  apply Expr.parseChain.mutual_induct c.eof
  case case1 =>
    intro level room ts left rest shorter hparse ih ihfrom fuel n depth h hroom hfuel
    obtain ⟨fuel, rfl⟩ : ∃ k, fuel = k + 1 := ⟨fuel - 1, by omega⟩
    rw [Grammar.read_chain, chain]
    refine (ih fuel n depth h hroom (by omega)).bind fun e rest' n' hok hrest => ?_
    rw [hresult hparse] at hok
    cases hok
    exact ihfrom fuel n' depth hrest hroom (by omega)
  case case2 =>
    intro level room ts f rest hparse ih fuel n depth h hroom hfuel
    obtain ⟨fuel, rfl⟩ : ∃ k, fuel = k + 1 := ⟨fuel - 1, by omega⟩
    rw [Grammar.read_chain, chain]
    refine (ih fuel n depth h hroom (by omega)).bind fun e rest' n' hok _ => ?_
    rw [hresult hparse] at hok
    cases hok
  case case3 =>
    intro level room left fuel n depth h _ hfuel
    obtain ⟨fuel, rfl⟩ := Nat.exists_eq_add_of_le' (Nat.le_of_add_left_le hfuel)
    rw [Grammar.readFrom_nil, chainFrom, h.pass (by simp)]
    exact .ok h
  case case4 =>
    intro level room left operator ts hop right rest shorter hparse ih ihfrom fuel n depth h hroom
      hfuel
    have hlevel := hheight level
    obtain ⟨fuel, rfl⟩ := Nat.exists_eq_add_of_le' (Nat.le_of_add_left_le hfuel)
    rw [List.length_cons] at hfuel
    rw [Grammar.hasOperator_iff] at hop
    rw [Grammar.readFrom_operator c.eof level room operator ts left hop, chainFrom, h.take hop,
      bind_of_eq h.previous]
    refine (ih fuel (n + 1) depth h.forward hroom (by omega)).bind fun e rest' n' hok hrest => ?_
    rw [hresult hparse] at hok
    cases hok
    exact ihfrom fuel n' depth hrest hroom (by omega)
  case case5 =>
    intro level room left operator ts hop f rest hparse ih fuel n depth h hroom hfuel
    have hlevel := hheight level
    obtain ⟨fuel, rfl⟩ := Nat.exists_eq_add_of_le' (Nat.le_of_add_left_le hfuel)
    rw [List.length_cons] at hfuel
    rw [Grammar.hasOperator_iff] at hop
    rw [Grammar.readFrom_operator c.eof level room operator ts left hop, chainFrom, h.take hop,
      bind_of_eq h.previous]
    refine (ih fuel (n + 1) depth h.forward hroom (by omega)).bind fun e rest' n' hok _ => ?_
    rw [hresult hparse] at hok
    cases hok
  case case6 =>
    intro level room left operator ts hop fuel n depth h _ hfuel
    obtain ⟨fuel, rfl⟩ := Nat.exists_eq_add_of_le' (Nat.le_of_add_left_le hfuel)
    rw [Grammar.hasOperator_iff] at hop
    rw [Grammar.readFrom_stop c.eof level room operator ts left hop, chainFrom,
      h.pass (by simpa using hop)]
    exact .ok h
  case case7 | case8 | case9 | case10 =>
    intro room ts ih fuel n depth h hroom hfuel
    obtain ⟨fuel, rfl⟩ := Nat.exists_eq_add_of_le' (Nat.le_of_add_left_le hfuel)
    rw [operand]
    exact ih fuel n depth h hroom (Nat.le_of_succ_le_succ hfuel)
  case case11 =>
    intro room fuel n depth h _ hfuel
    obtain ⟨fuel, rfl⟩ := Nat.exists_eq_add_of_le' (Nat.le_of_add_left_le hfuel)
    rw [Grammar.read_nil, unary, h.pass (by simp), primary, h.pass (by simp), h.pass (by simp),
      h.pass (by simp), h.pass (by simp), h.pass (by simp), bind_of_eq h.peek]
    exact .error h
  case case12 =>
    -- A prefix operator one too many: it is gone past, but no nesting is entered.
    intro operator ts hop fuel n depth h hroom hfuel
    obtain ⟨fuel, rfl⟩ := Nat.exists_eq_add_of_le' (Nat.le_of_add_left_le hfuel)
    rw [Grammar.isUnaryOperator_iff] at hop
    rw [Nat.add_zero] at hroom
    rw [Grammar.read_unary_zero c.eof operator ts hop, unary, h.take (by simpa using hop),
      bind_of_eq h.previous, bind_of_eq (enter_of_eq operator hroom)]
    exact .error h.forward
  case case13 =>
    intro operator ts hop room ih fuel n depth h hroom hfuel
    obtain ⟨fuel, rfl⟩ := Nat.exists_eq_add_of_le' (Nat.le_of_add_left_le hfuel)
    rw [List.length_cons] at hfuel
    rw [Grammar.isUnaryOperator_iff] at hop
    rw [Nat.succ_eq_add_one] at hroom ⊢
    rw [Grammar.read_unary_succ c.eof room operator ts hop, unary, h.take (by simpa using hop),
      bind_of_eq h.previous, bind_of_eq (enter_of_lt operator (by omega))]
    refine (ih (fuel + 1) (n + 1) (depth + 1) h.forward (by omega) (by omega)).leave
      fun r n' hleft => ?_
    generalize read c.eof .unary room ts = result at hleft
    obtain ⟨hrest⟩ | ⟨hrest⟩ := hleft
    · exact .ok hrest
    · exact .error hrest
  case case14 =>
    intro opening ts _ ho fuel n depth h hroom hfuel
    obtain ⟨fuel, rfl⟩ := Nat.exists_eq_add_of_le' (Nat.le_of_add_left_le hfuel)
    rw [Nat.add_zero] at hroom
    rw [Grammar.read_grouping_zero c.eof opening ts ho, unary, h.pass (by simp [ho]), primary,
      h.pass (by simp [ho]), h.pass (by simp [ho]), h.pass (by simp [ho]), h.pass (by simp [ho]),
      h.take (by simp [ho]), bind_of_eq h.previous, bind_of_eq (enter_of_eq opening hroom)]
    exact .error h.forward
  case case15 =>
    intro opening ts _ ho room ih fuel n depth h hroom hfuel
    obtain ⟨fuel, rfl⟩ := Nat.exists_eq_add_of_le' (Nat.le_of_add_left_le hfuel)
    rw [List.length_cons] at hfuel
    rw [Nat.succ_eq_add_one] at hroom ⊢
    rw [Grammar.read_grouping_succ c.eof room opening ts ho, unary, h.pass (by simp [ho]), primary,
      h.pass (by simp [ho]), h.pass (by simp [ho]), h.pass (by simp [ho]), h.pass (by simp [ho]),
      h.take (by simp [ho]), bind_of_eq h.previous, bind_of_eq (enter_of_lt opening (by omega))]
    -- The parenthesis is closed outside of the nesting, which is left first.
    have hinner : 10 * ts.length + 2 * Level.equality.height + 2 ≤ fuel := by
      rw [Level.height]
      omega
    refine (ih fuel (n + 1) (depth + 1) h.forward (by omega) hinner).leave fun r n' hleft => ?_
    change Follows c depth (read c.eof Grammar.expression room ts) _ at hleft
    generalize read c.eof Grammar.expression room ts = result at hleft
    obtain ⟨hrest⟩ | ⟨hrest⟩ := hleft
    · exact hrest.close _
    · exact .error hrest
  case case16 =>
    intro room t ts _ _ value hv fuel n depth h _ hfuel
    obtain ⟨fuel, rfl⟩ := Nat.exists_eq_add_of_le' (Nat.le_of_add_left_le hfuel)
    rw [Grammar.read_literal c.eof room t ts value hv, h.unary_literal hv]
    exact .ok h.forward
  case case17 | case18 =>
    intro room t ts hop hparen hv _ fuel n depth h _ hfuel
    obtain ⟨fuel, rfl⟩ := Nat.exists_eq_add_of_le' (Nat.le_of_add_left_le hfuel)
    rw [Grammar.isUnaryOperator_iff] at hop
    exact h.unary_unexpected hop hparen hv

end Rules

/-! ## Calls -/

section Calls

variable {c : Cut} {ts : List Token} {n : Nat}

/-- Behind a token the machine skips what the parser skips. -/
theorem Stands.skip {before : Token} (h : Stands c (before :: ts) n) (depth : Nat) {fuel : Nat}
    (hfuel : ts.length + 1 ≤ fuel) :
    ∃ n', skip c.tokens fuel (.at (n + 1) depth) = some ((), .at n' depth) ∧
      Stands c (Parser.skipStatement before ts) n' := by
  obtain ⟨fuel, rfl⟩ := Nat.exists_eq_add_of_le' (Nat.le_of_add_left_le hfuel)
  -- Each step needs one more unit of fuel and has one token less before it.
  induction ts generalizing before n fuel with
  | nil =>
    refine ⟨n + 1, ?_, h.forward⟩
    rw [Machine.skip, bind_of_eq h.forward.isAtEnd, List.isEmpty_nil, if_pos rfl]
    rfl
  | cons t ts ih =>
    rw [Machine.skip, bind_of_eq h.forward.isAtEnd, List.isEmpty_cons, if_neg Bool.false_ne_true,
      bind_of_eq h.previous, Parser.skipStatement]
    by_cases hbefore : before.kind = .semicolon
    · rw [if_pos hbefore, if_pos (.inl hbefore)]
      exact ⟨n + 1, rfl, h.forward⟩
    · rw [if_neg hbefore, bind_of_eq h.forward.peek, List.headD_cons]
      by_cases hstart : t.kind.startsStatement = true
      · rw [if_pos hstart, if_pos (.inr hstart)]
        exact ⟨n + 1, rfl, h.forward⟩
      · rw [if_neg hstart, if_neg (not_or.mpr ⟨hbefore, hstart⟩), bind_of_eq h.forward.advance]
        rw [List.length_cons] at hfuel
        obtain ⟨fuel, rfl⟩ : ∃ k, fuel = k + 1 := ⟨fuel - 1, by omega⟩
        exact ih h.forward fuel (Nat.le_of_succ_le_succ hfuel)

/-- There are fewer tokens before the end than in the whole list. -/
theorem Stands.length_lt (h : Stands c ts n) : ts.length < c.tokens.length := by
  have hlen := h.length_eq
  rw [Cut.tokens, List.length_append, List.length_cons]
  omega

/-- After a fault the machine skips what the parser skips. -/
theorem Stands.synchronize (h : Stands c ts n) (depth : Nat) :
    ∃ n', synchronize c.tokens (.at n depth) = some ((), .at n' depth) ∧
      Stands c (Parser.recover ts) n' := by
  have hlt := h.length_lt
  -- At the end there is nothing to go past, so that the advance stays.
  cases ts with
  | nil =>
    obtain ⟨t, hadvance⟩ := h.advance_nil depth
    obtain ⟨fuel, hfuel⟩ : ∃ k, c.tokens.length = k + 1 := Nat.exists_eq_add_of_le' hlt
    refine ⟨n, ?_, h⟩
    rw [Machine.synchronize, bind_of_eq hadvance, hfuel, Machine.skip, bind_of_eq h.isAtEnd,
      List.isEmpty_nil, if_pos rfl]
    rfl
  | cons t ts =>
    obtain ⟨n', hskip, hrest⟩ := h.skip depth (Nat.le_of_lt hlt)
    refine ⟨n', ?_, hrest⟩
    rw [Machine.synchronize, bind_of_eq h.advance, hskip]

/-- A call of `parse` outside of all nestings gives what the parser gives, stands before what the
parser leaves, and is outside of all nestings again. -/
theorem Stands.parse (h : Stands c ts n) :
    ∃ n', parse c.tokens (.at n 0) = some ((Parser.mk ts c.eof).parse.1, .at n' 0) ∧
      Stands c (Parser.mk ts c.eof).parse.2.pending n' := by
  -- The fuel is enough for each token at every level.
  have hfuel : 10 * ts.length + 2 * Level.equality.height + 2 ≤ 10 * c.tokens.length := by
    have hlt := h.length_lt
    rw [Level.height]
    omega
  have hfollows := (follows_all c).1 .equality maxNesting ts _ n 0 h (Nat.zero_add _) hfuel
  rw [Parser.parse_eq, Grammar.expression]
  generalize hrun : chain c.tokens .equality (10 * c.tokens.length) (.at n 0) = answer at hfollows
  generalize read c.eof (.chain .equality) maxNesting ts = result at hfollows
  obtain ⟨hrest⟩ | ⟨hrest⟩ := hfollows
  · refine ⟨_, ?_, hrest⟩
    rw [Machine.parse, bind_of_eq hrun]
    rfl
  · obtain ⟨n', hskip, hrest'⟩ := hrest.synchronize 0
    refine ⟨n', ?_, hrest'⟩
    rw [Machine.parse, bind_of_eq hrun]
    dsimp only
    rw [bind_of_eq hskip]
    rfl

end Calls

/-- The token list of a parser, cut at its first end. -/
def Cut.ofTokens (ts : List Token) : Cut where
  before := (Parser.ofTokens ts).pending
  eof := (Parser.ofTokens ts).eof
  behind := (Parser.withEof ts).drop ((Parser.ofTokens ts).pending.length + 1)
  kind_ne_eof _ := Parser.kind_ne_eof_of_mem_pending
  kind_eof := Parser.kind_eof_ofTokens ts

/-- The parts of a vector are all of it. -/
theorem Cut.tokens_ofTokens (ts : List Token) : (Cut.ofTokens ts).tokens = Parser.withEof ts := by
  obtain ⟨behind, hts⟩ := Parser.withEof_eq ts
  have hbehind : (Cut.ofTokens ts).behind = behind := by
    simp [Cut.ofTokens, hts, List.drop_append]
  rw [Cut.tokens, hbehind, hts]
  rfl

/-- A parser that calls lead to stands at its cursor. -/
theorem stands_cursor {ts : List Token} {p : Parser} (h : Parser.Reached ts p) :
    Stands (Cut.ofTokens ts) p.pending (p.cursor ts) := by
  obtain ⟨consumed, hpending⟩ := h.pending_suffix
  refine ⟨consumed, hpending.symm, ?_⟩
  rw [Parser.cursor, ← hpending, List.length_append, Nat.add_sub_cancel]

/-- A machine at the cursor of a parser gives what the parser gives, and then is at its cursor
again. -/
theorem parse_at_cursor {ts : List Token} {p : Parser} (h : Parser.Reached ts p) :
    parse (Parser.withEof ts) (.at (p.cursor ts) 0) =
      some (p.parse.1, .at (p.parse.2.cursor ts) 0) := by
  have hp : p = ⟨p.pending, (Cut.ofTokens ts).eof⟩ :=
    congrArg (Parser.mk p.pending) h.eof_eq
  obtain ⟨n, hparse, hstands⟩ := (stands_cursor h).parse
  rw [← hp] at hparse hstands
  rw [← Cut.tokens_ofTokens, hparse, hstands.unique (stands_cursor h.parse)]

/-- After any calls a machine is where the parser is. -/
theorem after_eq (ts : List Token) (calls : Nat) :
    after (Parser.withEof ts) calls =
      some (.at (((Parser.ofTokens ts).after calls).cursor ts) 0) := by
  induction calls with
  | zero =>
    rw [Parser.after, Parser.cursor, Nat.sub_self]
    rfl
  | succ calls ih =>
    rw [after, ih, Option.bind_some, parse_at_cursor (Parser.reached_after ts calls)]
    rfl

end LoxCalc.Machine
