import LoxCalc.Proofs.Parser.Machine.Simulation

/-!
# A parser remembers nothing but its cursor

A parser that was called before, with whatever outcomes, is as good as a new parser of the tokens it
has left (`reuse_like_new`). As a machine it has left every nesting that it entered and no other,
and although it looks back at the token before its cursor, what it has consumed makes no difference.

The parser of the tokens from the cursor on is the parser itself (`ofTokens_drop_cursor`), and the
machine does what the parser does.
-/

namespace LoxCalc.Parser

/-- The first end of a token list ends its parser. -/
theorem ofTokens_append_eof {before behind : List Token} {eof : Token}
    (hbefore : ∀ t ∈ before, t.kind ≠ .eof) (heof : eof.kind = .eof) :
    ofTokens (before ++ eof :: behind) = ⟨before, eof⟩ := by
  have hpending : (before ++ eof :: behind).takeWhile (·.kind != .eof) = before := by
    rw [List.takeWhile_append_of_pos (by simpa using hbefore), List.takeWhile_cons_of_neg]
    · exact List.append_nil before
    · simpa using heof
  have hfind : (before ++ eof :: behind).find? (·.kind == .eof) = some eof := by
    have hnone : before.find? (·.kind == .eof) = none := by simpa using hbefore
    rw [List.find?_append, hnone, Option.none_or, List.find?_cons_of_pos]
    simpa using heof
  rw [ofTokens, hpending, hfind, Option.getD_some]

/-- The end that is supplied is the one the parser has anyway. -/
theorem ofTokens_withEof (ts : List Token) : ofTokens (withEof ts) = ofTokens ts := by
  obtain ⟨behind, hts⟩ := withEof_eq ts
  rw [hts, ofTokens_append_eof (fun _ => kind_ne_eof_of_mem_pending) (kind_eof_ofTokens ts)]

/-- The parser of the tokens from the cursor on is the parser at the cursor. -/
theorem ofTokens_drop_cursor {ts : List Token} {p : Parser} (h : Reached ts p) :
    ofTokens ((withEof ts).drop (p.cursor ts)) = p := by
  obtain ⟨behind, hdrop⟩ := h.drop_cursor
  have hpending : ∀ t ∈ p.pending, t.kind ≠ .eof :=
    fun t ht => kind_ne_eof_of_mem_pending (h.pending_suffix.subset ht)
  rw [hdrop, ofTokens_append_eof hpending h.kind_eof]

/-- A call moves the cursor as far as it does in any other token list of the same parser. -/
theorem cursor_parse_eq {ts rest : List Token} {p : Parser} (h : Reached ts p)
    (hrest : ofTokens rest = p) : p.parse.2.cursor ts = p.cursor ts + p.parse.2.cursor rest := by
  have hle := h.pending_suffix.length_le
  have hle' := (pending_parse_suffix h.kind_eof).length_le
  rw [cursor, cursor, cursor, hrest]
  omega

/-- The first call of a new machine is the first call of the new parser. -/
theorem parse_start (ts : List Token) : Machine.parse (withEof ts) .start =
    some ((ofTokens ts).parse.1, .at ((ofTokens ts).parse.2.cursor ts) 0) := by
  have hparse := Machine.parse_at_cursor (reached_after ts 0)
  rw [after, cursor, Nat.sub_self] at hparse
  exact hparse

/-- A parser after some calls, as the machine in the state `s`, against a new parser of the tokens
from its cursor on. -/
structure LikeNew (ts : List Token) (calls : Nat) (s : Machine.State) : Prop where
  /-- The calls lead to this state, and none of them left a nesting that it was not in. -/
  reached : Machine.after (withEof ts) calls = some s
  /-- All nestings that were entered have been left. -/
  depth : s.depth = 0
  /-- The parser is at the same place. -/
  current : s.current = ((ofTokens ts).after calls).cursor ts
  /-- The next call gives what the first call of the new machine gives, and consumes as many tokens.
  It leaves all nestings again. -/
  next : ∃ answer s' fresh, Machine.parse (withEof ts) s = some (answer, s') ∧
    Machine.parse (withEof ((withEof ts).drop s.current)) .start = some (answer, fresh) ∧
    s'.current = s.current + fresh.current ∧ s'.depth = 0 ∧
    answer = ((ofTokens ts).after calls).parse.1
  /-- So does the next call of the parser against the first call of the new parser. -/
  parse : ((ofTokens ts).after calls).parse.1 =
      (ofTokens ((withEof ts).drop s.current)).parse.1 ∧
    ((ofTokens ts).after (calls + 1)).cursor ts = s.current +
      (ofTokens ((withEof ts).drop s.current)).parse.2.cursor ((withEof ts).drop s.current)

/-- After any number of calls, with any outcomes, a parser of any token list is like a new one of
the tokens it has left. -/
theorem reuse_like_new (ts : List Token) (calls : Nat) : ∃ s, LikeNew ts calls s := by
  have hreached := reached_after ts calls
  -- A new parser of the rest has the same tokens before it, so that both calls start alike.
  have hfresh := ofTokens_drop_cursor hreached
  have hcursor := cursor_parse_eq hreached hfresh
  have hstart := parse_start ((withEof ts).drop (((ofTokens ts).after calls).cursor ts))
  rw [hfresh] at hstart
  refine ⟨.at (((ofTokens ts).after calls).cursor ts) 0, ?_⟩
  constructor
  case reached => exact Machine.after_eq ts calls
  case depth => rfl
  case current => rfl
  case next => exact ⟨_, _, _, Machine.parse_at_cursor hreached, hstart, hcursor, rfl, rfl⟩
  case parse =>
    rw [Machine.State.current_at, hfresh]
    exact ⟨rfl, hcursor⟩

end LoxCalc.Parser
