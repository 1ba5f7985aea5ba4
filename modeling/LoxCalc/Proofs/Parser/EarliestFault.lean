import LoxCalc.Proofs.Parser.Cursor

/-!
# Faults are found at the earliest token

A fault of the first call of `parse` is at the first token that does not fit
(`parse_error_earliest`). The tokens up to and including it decide the fault, so that nothing behind
it was looked at, and the tokens before it can be completed to an expression that consumes them all,
so that nothing before it was at fault.

Both halves rest on where the grammar is stuck: the parser is stuck there on any continuation
(`Stuck.read_eq_error`), and the rules it has begun can be finished without the offending token
(`Stuck.completes`).
-/

namespace LoxCalc.Parser

open Grammar

/-- The index, from the cursor on, of the token that the next call of `parse` finds a fault at. The
fault is at the first token that was not consumed, or at the last one that was. -/
def faultIndex? (p : Parser) : Option Nat :=
  match Expr.parseChain p.eof .equality maxNesting p.pending with
  | .tree _ _ _ => none
  | .fault f rest => some (p.pending.length - rest.length - overrun f)

/-- Where the grammar is stuck in the pending tokens, a call of `parse` finds the fault. -/
theorem parse_eq_error_of_stuck {p : Parser} (heof : p.eof.kind = .eof) {word : List Token}
    {f : GrammarFault} (h : Stuck expression maxNesting word f)
    (hbegins : word ++ [f.token] <+: p.pending ++ [p.eof]) :
    p.parse.1 = .error f ∧ p.faultIndex? = some word.length := by
  obtain ⟨rest, hread, -, hlen⟩ := h.read_eq_error heof p.pending hbegins
  -- The index is counted from what the parser leaves, which the grammar knows to be behind the
  -- word.
  rw [expression, Grammar.read] at hread
  rw [parse, faultIndex?]
  cases hparse : Expr.parseChain p.eof .equality maxNesting p.pending with
  | tree e rest shorter => simp [hparse] at hread
  | fault f' rest' =>
    rw [hparse] at hread
    cases hread
    refine ⟨rfl, ?_⟩
    dsimp only
    congr 1
    omega

/-- A call of `parse` finds a fault only where the grammar is stuck in the pending tokens. -/
theorem stuck_of_parse_eq_error {p : Parser} (heof : p.eof.kind = .eof) {f : GrammarFault}
    (h : p.parse.1 = .error f) :
    ∃ word, Stuck expression maxNesting word f ∧ word ++ [f.token] <+: p.pending ++ [p.eof] := by
  apply (read_eq_error_iff heof).mp
  rw [parse_eq, expression] at h
  cases hread : Grammar.read p.eof (.chain .equality) maxNesting p.pending with
  | ok result => simp [hread] at h
  | error result =>
    obtain ⟨f', rest⟩ := result
    rw [hread] at h
    cases h
    exact ⟨rest, rfl⟩

/-- Tokens without an end that begin the token list of a parser, with one more token, begin what the
parser looks at. -/
theorem prefix_of_prefix_withEof {us word : List Token} {t : Token}
    (hword : ∀ t ∈ word, t.kind ≠ .eof) (h : word ++ [t] <+: withEof us) :
    word ++ [t] <+: (ofTokens us).pending ++ [(ofTokens us).eof] := by
  obtain ⟨behind, hus⟩ := withEof_eq us
  have hseen : (ofTokens us).pending ++ [(ofTokens us).eof] <+: withEof us :=
    ⟨behind, by rw [hus, List.append_assoc]; rfl⟩
  rcases List.prefix_or_prefix_of_prefix h hseen with hle | hle
  · exact hle
  · -- The parser looks at no less, or else the end would be in the word.
    rcases Nat.lt_or_ge (ofTokens us).pending.length word.length with hlt | hge
    · have hmem : (ofTokens us).eof ∈ word := by
        have hsub : (ofTokens us).pending ++ [(ofTokens us).eof] <+: word :=
          List.prefix_of_prefix_length_le hle (List.prefix_append word [t]) (by simp; omega)
        exact hsub.subset (by simp)
      exact absurd (kind_eof_ofTokens us) (hword _ hmem)
    · have heq := hle.eq_of_length_le (by simp; omega)
      exact heq ▸ List.prefix_refl _

/-- A fault of the first call of `parse` is at the earliest token it can be at. It is at the token
with an index `e`; every token list that agrees up to and including that token has the same fault
there; and the tokens before it begin a list from which the first call returns a tree that consumes
at least all of them. -/
theorem parse_error_earliest (ts : List Token) (f : GrammarFault)
    (hf : (ofTokens ts).parse.1 = .error f) :
    ∃ e, (ofTokens ts).faultIndex? = some e ∧ (withEof ts)[e]? = some f.token ∧
    (∀ us, (withEof us).take (e + 1) = (withEof ts).take (e + 1) →
      (ofTokens us).parse.1 = .error f ∧ (ofTokens us).faultIndex? = some e) ∧
    ∃ more tree, (ofTokens ((withEof ts).take e ++ more)).parse.1 = .ok tree ∧
      e ≤ (ofTokens ((withEof ts).take e ++ more)).parse.2.cursor
        ((withEof ts).take e ++ more) := by
  have heof := kind_eof_ofTokens ts
  obtain ⟨word, hstuck, hbegins⟩ := stuck_of_parse_eq_error heof hf
  obtain ⟨behind, hts⟩ := withEof_eq ts
  have hbegin : word ++ [f.token] <+: withEof ts := by
    refine hbegins.trans ⟨behind, ?_⟩
    rw [hts, List.append_assoc]; rfl
  have htake : (withEof ts).take (word.length + 1) = word ++ [f.token] := by
    have := List.prefix_iff_eq_take.mp hbegin
    rw [List.length_append, List.length_singleton] at this
    exact this.symm
  -- The word that the parser is stuck behind has no end in it, since the parser does not go past
  -- one.
  have hword : ∀ t ∈ word, t.kind ≠ .eof := by
    obtain ⟨tail, hpending, -⟩ := exists_eq_append_of_begins word (by simp) hbegins
    intro t ht
    exact kind_ne_eof_of_mem_pending (hpending ▸ List.mem_append_left tail ht)
  refine ⟨word.length, (parse_eq_error_of_stuck heof hstuck hbegins).2, ?_, ?_, ?_⟩
  · obtain ⟨tail, hword⟩ := hbegin
    simp [← hword]
  · -- The parser is stuck in any list that begins like this one.
    intro us hus
    refine parse_eq_error_of_stuck (kind_eof_ofTokens us) hstuck (prefix_of_prefix_withEof hword ?_)
    rw [← htake, ← hus]
    exact List.take_prefix _ _
  · -- The completion is an expression without an end, all of which the call consumes.
    obtain ⟨more, tree, hd, hn⟩ := hstuck.completes
    have hbefore : (withEof ts).take word.length = word := by
      have := List.prefix_iff_eq_take.mp ((List.prefix_append word [f.token]).trans hbegin)
      exact this.symm
    obtain ⟨hok, hrest⟩ := parse_ofTokens_of_derives hd hn
    have hpending := pending_ofTokens_of_kind_ne_eof hd.kind_ne_eof
    refine ⟨more, tree, ?_, ?_⟩
    · rw [hbefore]
      exact hok
    · rw [hbefore, cursor, hrest, hpending, List.length_append]
      simp

/-- In `( nil nil` the second `nil` stands where a parenthesis is expected. -/
theorem parse_error_earliest_unclosed :
    let nil : Token := ⟨.nilWord, "nil", none, 1⟩
    let ts : List Token := [⟨.leftParen, "(", none, 1⟩, nil, nil]
    let f : GrammarFault := ⟨.expectedRightParenthesis, nil⟩
    (ofTokens ts).parse.1 = .error f ∧ (ofTokens ts).faultIndex? = some 2 ∧
    (∀ us, (withEof us).take 3 = (withEof ts).take 3 → (ofTokens us).parse.1 = .error f) ∧
    ∃ more tree, (ofTokens ((withEof ts).take 2 ++ more)).parse.1 = .ok tree := by
  intro nil ts f
  have hf : (ofTokens ts).parse.1 = .error f := by cbv
  have hindex : (ofTokens ts).faultIndex? = some 2 := by cbv
  obtain ⟨e, he, -, hsame, more, tree, hok, -⟩ := parse_error_earliest ts f hf
  obtain rfl : 2 = e := Option.some.inj (hindex.symm.trans he)
  exact ⟨hf, hindex, fun us hus => (hsame us hus).1, more, tree, hok⟩

end LoxCalc.Parser
