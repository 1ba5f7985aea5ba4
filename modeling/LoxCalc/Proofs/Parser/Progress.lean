import LoxCalc.Proofs.Parser.EarliestFault
import LoxCalc.Proofs.Parser.Reuse

/-!
# Every call makes progress up to the first end

Whatever token list a parser is made of, its cursor never goes beyond the first end in the list, and
no call looks at a token behind it. Every call before the end consumes a token, also one that fails
before it has consumed any, since recovery skips at least one; a call at the end finds the fault
there and stays (`cursor_safe`).

What is pending gets shorter with every call until nothing is left (`length_parse_lt`), and then
stays so (`parse_of_pending_eq_nil`). That the machine looks nowhere else is its trail, which holds
the indices up to its cursor.
-/

namespace LoxCalc.Parser

open Grammar

/-- The index of the first end in the token list of a parser. -/
def endIndex (ts : List Token) : Nat :=
  (withEof ts).findIdx (·.kind == .eof)

/-- A new parser is to consume what stands before the first end. -/
theorem endIndex_eq (ts : List Token) : endIndex ts = (ofTokens ts).pending.length := by
  obtain ⟨behind, hts⟩ := withEof_eq ts
  have hbefore : (ofTokens ts).pending.findIdx (·.kind == .eof) = (ofTokens ts).pending.length :=
    List.findIdx_eq_length.mpr fun t ht => by simpa using kind_ne_eof_of_mem_pending ht
  rw [endIndex, hts, List.findIdx_append, hbefore, if_neg (Nat.lt_irrefl _), List.findIdx_cons,
    kind_eof_ofTokens]
  exact Nat.zero_add _

/-- At the first end stands the end of the parser. -/
theorem getElem?_endIndex (ts : List Token) :
    (withEof ts)[endIndex ts]? = some (ofTokens ts).eof := by
  obtain ⟨behind, hts⟩ := withEof_eq ts
  rw [endIndex_eq, hts, List.getElem?_append_right (Nat.le_refl _), Nat.sub_self,
    List.getElem?_cons_zero]

/-- What is pending stands between the cursor and the first end. -/
theorem Reached.cursor_add {ts : List Token} {p : Parser} (h : Reached ts p) :
    p.cursor ts + p.pending.length = endIndex ts := by
  have hle := h.pending_suffix.length_le
  rw [endIndex_eq, cursor]
  omega

/-! ## One call -/

/-- Recovery skips a token if there is one. -/
theorem length_recover_lt {ts : List Token} (h : ts ≠ []) : (recover ts).length < ts.length := by
  cases ts with
  | nil => exact absurd rfl h
  | cons t ts =>
    have hle : (skipStatement t ts).length ≤ ts.length := (skipStatement_suffix t ts).length_le
    rw [recover, List.length_cons]
    omega

/-- A call with tokens pending consumes one of them. -/
theorem length_parse_lt {p : Parser} (heof : p.eof.kind = .eof) (h : p.pending ≠ []) :
    p.parse.2.pending.length < p.pending.length := by
  have hmeets := (read_meets_all heof).1 .equality maxNesting p.pending
  rw [parse_eq, expression]
  cases hread : read p.eof (.chain .equality) maxNesting p.pending with
  | ok result =>
    rw [hread] at hmeets
    obtain ⟨word, hpending, hderives, -, -⟩ | _ := hmeets
    have hword : 0 < word.length := List.length_pos_iff.mpr hderives.word_ne_nil
    rw [hpending, List.length_append]
    exact Nat.lt_add_of_pos_left hword
  | error result =>
    obtain ⟨f, rest⟩ := result
    rw [hread] at hmeets
    obtain _ | ⟨word, hstuck, hbegins⟩ := hmeets
    obtain ⟨rest', hrest', hsuffix, -⟩ := hstuck.read_eq_error heof p.pending hbegins
    obtain rfl : rest = rest' := by simpa [hread] using hrest'
    -- Nothing may have been consumed before the fault, but then recovery consumes a token.
    by_cases hnil : rest = []
    · rw [hnil]
      exact List.length_pos_iff.mpr h
    · exact Nat.lt_of_lt_of_le (length_recover_lt hnil) hsuffix.length_le

/-- A call with nothing pending finds the end and leaves the parser as it is. -/
theorem parse_of_pending_eq_nil {p : Parser} (h : p.pending = []) :
    p.parse = (.error ⟨.expectedExpression, p.eof⟩, p) := by
  have hread : read p.eof expression maxNesting p.pending =
      .error (⟨.expectedExpression, p.eof⟩, []) := by
    simp only [h, expression, read_chain, Grammar.operand, read_nil]
    rfl
  rw [parse_eq, hread]
  dsimp only
  rw [recover, ← h]

/-- A call before the first end moves the cursor. -/
theorem Reached.cursor_lt {ts : List Token} {p : Parser} (h : Reached ts p)
    (hlt : p.cursor ts < endIndex ts) : p.cursor ts < p.parse.2.cursor ts := by
  have hadd := h.cursor_add
  have hadd' := h.parse.cursor_add
  have hne : p.pending ≠ [] := by
    rw [← List.length_pos_iff]
    omega
  have hshorter := length_parse_lt h.kind_eof hne
  omega

/-- A call at the first end finds it. -/
theorem Reached.parse_of_cursor_eq {ts : List Token} {p : Parser} (h : Reached ts p)
    (hend : p.cursor ts = endIndex ts) :
    p.parse = (.error ⟨.expectedExpression, (ofTokens ts).eof⟩, p) := by
  have hadd := h.cursor_add
  have hnil : p.pending = [] := by
    rw [← List.length_eq_zero_iff]
    omega
  rw [parse_of_pending_eq_nil hnil, h.eof_eq]

/-! ## All calls -/

/-- Each call takes at least one of the tokens that were to be consumed, while there are any. -/
theorem length_pending_after_le (ts : List Token) (calls : Nat) :
    ((ofTokens ts).after calls).pending.length ≤ endIndex ts - calls := by
  induction calls with
  | zero => exact Nat.le_of_eq (endIndex_eq ts).symm
  | succ calls ih =>
    rw [after]
    by_cases hnil : ((ofTokens ts).after calls).pending = []
    · rw [parse_of_pending_eq_nil hnil, hnil]
      exact Nat.zero_le _
    · have hlt := length_parse_lt (reached_after ts calls).kind_eof hnil
      omega

/-- Token lists that agree up to and including the first end have the same parser. -/
theorem ofTokens_eq_of_take {ts us : List Token}
    (h : (withEof us).take (endIndex ts + 1) = (withEof ts).take (endIndex ts + 1)) :
    ofTokens us = ofTokens ts := by
  obtain ⟨behind, hts⟩ := withEof_eq ts
  have htake : (withEof ts).take (endIndex ts + 1) =
      (ofTokens ts).pending ++ [(ofTokens ts).eof] := by
    rw [hts, endIndex_eq, List.take_length_add_append]
    rfl
  -- What the parser sees ends with the first end, and the other vector begins alike.
  have hus : withEof us = (ofTokens ts).pending ++
      (ofTokens ts).eof :: (withEof us).drop (endIndex ts + 1) := by
    calc withEof us = (withEof us).take (endIndex ts + 1) ++ (withEof us).drop (endIndex ts + 1) :=
          (List.take_append_drop _ _).symm
      _ = _ := by rw [h, htake, List.append_assoc, List.singleton_append]
  rw [← ofTokens_withEof us, hus,
    ofTokens_append_eof (fun _ => kind_ne_eof_of_mem_pending) (kind_eof_ofTokens ts)]

/-- A parser after some calls, as the machine in the state `s`. -/
structure CursorSafe (ts : List Token) (calls : Nat) (s : Machine.State) : Prop where
  /-- The calls lead to this state, and each token they looked at was there. -/
  reached : Machine.after (withEof ts) calls = some s
  /-- The parser is at the same place. -/
  current : s.current = ((ofTokens ts).after calls).cursor ts
  /-- There is an end in the list. -/
  endIndex_lt : endIndex ts < (withEof ts).length
  /-- The cursor has never been beyond the first one, in any step of any call. -/
  trail_le : s.current ∈ s.trail ∧ ∀ i ∈ s.trail, i ≤ endIndex ts
  /-- The next call gives what the parser gives. Before the end it moves the cursor; at the end it
  finds the fault that the end is no expression, and stays. -/
  next : ∃ answer s', Machine.parse (withEof ts) s = some (answer, s') ∧
    answer = ((ofTokens ts).after calls).parse.1 ∧
    (s.current < endIndex ts → s.current < s'.current) ∧
    (s.current = endIndex ts → s'.current = endIndex ts ∧
      ∃ t, (withEof ts)[endIndex ts]? = some t ∧ answer = .error ⟨.expectedExpression, t⟩)
  /-- After as many calls as there are tokens before the end, and after any more, it is there. -/
  at_end : endIndex ts ≤ calls → s.current = endIndex ts
  /-- Other tokens behind the first end make no difference to the calls so far or to the next. -/
  behind : ∀ us, (withEof us).take (endIndex ts + 1) = (withEof ts).take (endIndex ts + 1) →
    Machine.after (withEof us) calls = some s ∧
    Machine.parse (withEof us) s = Machine.parse (withEof ts) s ∧
    ((ofTokens us).after calls).parse.1 = ((ofTokens ts).after calls).parse.1

/-- After any number of calls on any token list the cursor is safe. -/
theorem cursor_safe (ts : List Token) (calls : Nat) : ∃ s, CursorSafe ts calls s := by
  have hreached := reached_after ts calls
  have hadd := hreached.cursor_add
  refine ⟨.at (((ofTokens ts).after calls).cursor ts) 0, ?_⟩
  constructor
  case reached => exact Machine.after_eq ts calls
  case current => rfl
  case endIndex_lt => exact (List.getElem?_eq_some_iff.mp (getElem?_endIndex ts)).1
  case trail_le =>
    simp only [Machine.State.mem_trail_at, Machine.State.current_at]
    exact ⟨Nat.le_refl _, fun i hi => by omega⟩
  case next =>
    refine ⟨_, _, Machine.parse_at_cursor hreached, rfl, ?_, ?_⟩
    · exact hreached.cursor_lt
    · intro hend
      rw [Machine.State.current_at] at hend
      rw [Machine.State.current_at, hreached.parse_of_cursor_eq hend]
      exact ⟨hend, _, getElem?_endIndex ts, rfl⟩
  case at_end =>
    intro hcalls
    have hle := length_pending_after_le ts calls
    rw [Machine.State.current_at]
    omega
  -- The rest of the vector is not seen by the parser, and so neither by the machine.
  case behind =>
    intro us hus
    have hsame := ofTokens_eq_of_take hus
    have hcursor (p : Parser) : p.cursor us = p.cursor ts := by
      rw [cursor, cursor, hsame]
    have hafter := Machine.after_eq us calls
    have hparse := Machine.parse_at_cursor (reached_after us calls)
    rw [hsame, hcursor] at hafter hparse
    rw [hcursor] at hparse
    refine ⟨hafter, ?_, by rw [hsame]⟩
    rw [hparse, Machine.parse_at_cursor hreached]

end LoxCalc.Parser
