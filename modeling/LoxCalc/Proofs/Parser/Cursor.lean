import LoxCalc.Proofs.Parser.Outcomes

/-!
# Parsers as cursors

A parser holds the tokens it has not consumed. Seen from the token list it was made of, it is a
cursor: an index into the list, which is supplied with an end where it has none (`withEof`). Calls
of `parse` move the cursor and nothing else. `Reached` is the invariant of all of them, and
`drop_cursor` says what stands at the cursor: the pending tokens, the end, and what is never looked
at.
-/

namespace LoxCalc.Parser

open Grammar

/-- A token list whose last token is an end: an end on the line of its last token is supplied where
there is none. -/
def withEof (ts : List Token) : List Token :=
  if ts.getLast?.map Token.kind = some .eof then ts
  else ts ++ [.eof ((ts.getLast?.map Token.line).getD 1)]

/-- The parser after some calls of `parse`. -/
def after (p : Parser) : Nat → Parser
  | 0 => p
  | calls + 1 => (p.after calls).parse.2

/-- The index of the first token that a parser made of `ts` has not consumed. -/
def cursor (ts : List Token) (p : Parser) : Nat :=
  (ofTokens ts).pending.length - p.pending.length

/-! ## New parsers -/

/-- The end of a parser is one. -/
theorem kind_eof_ofTokens (ts : List Token) : (ofTokens ts).eof.kind = .eof := by
  simp only [ofTokens]
  cases h : ts.find? (·.kind == .eof) with
  | none => rfl
  | some t => simpa using List.find?_some h

/-- No token that a new parser is to consume is an end. -/
theorem kind_ne_eof_of_mem_pending {ts : List Token} {t : Token} (h : t ∈ (ofTokens ts).pending) :
    t.kind ≠ .eof := by
  simpa using List.all_eq_true.mp List.all_takeWhile t h

/-- A new parser is to consume the whole of a list without an end. -/
theorem pending_ofTokens_of_kind_ne_eof {ts : List Token} (h : ∀ t ∈ ts, t.kind ≠ .eof) :
    (ofTokens ts).pending = ts := by
  have htake := @List.takeWhile_append_of_pos _ (·.kind != .eof) ts [] (by simpa using h)
  rwa [List.append_nil, List.takeWhile_nil, List.append_nil] at htake

/-- A new parser is to consume what stands before the first end. -/
theorem pending_ofTokens_append {ts : List Token} (h : ∀ t ∈ ts, t.kind ≠ .eof)
    (line : Nat) : (ofTokens (ts ++ [.eof line])).pending = ts := by
  have hbefore : ∀ t ∈ ts, (t.kind != .eof) = true := by simpa using h
  have hend : [Token.eof line].takeWhile (·.kind != .eof) = [] := rfl
  rw [ofTokens, List.takeWhile_append_of_pos hbefore, hend, List.append_nil]

/-- The tokens that a new parser is to consume and its end begin its token list. -/
theorem withEof_eq (ts : List Token) :
    ∃ behind, withEof ts = (ofTokens ts).pending ++ (ofTokens ts).eof :: behind := by
  -- Without an end of its own the vector gets one; otherwise the parser sees what stands before the
  -- first.
  cases h : ts.find? (·.kind == .eof) with
  | none =>
    have hall : ∀ t ∈ ts, t.kind ≠ .eof := by simpa using h
    have hlast : ts.getLast?.map Token.kind ≠ some .eof := by
      intro hlast
      obtain ⟨t, ht, hk⟩ := Option.map_eq_some_iff.mp hlast
      exact hall t (List.mem_of_getLast? ht) hk
    refine ⟨[], ?_⟩
    rw [withEof, if_neg hlast, pending_ofTokens_of_kind_ne_eof hall, ofTokens, h]; rfl
  | some t =>
    rw [ofTokens, h]
    obtain ⟨ht, before, behind, rfl, hbefore⟩ := List.find?_eq_some_iff_append.mp h
    have htake : (before ++ t :: behind).takeWhile (·.kind != .eof) = before := by
      rw [List.takeWhile_append_of_pos (by simpa using hbefore), List.takeWhile_cons_of_neg]
      · exact List.append_nil before
      · simpa using ht
    rw [Option.getD_some, htake, withEof]
    split
    · exact ⟨behind, rfl⟩
    · exact ⟨_, List.append_assoc before (t :: behind) _⟩

/-! ## One call -/

/-- A call of `parse` reads an expression with room for the deepest nesting. -/
theorem parse_eq (p : Parser) :
    p.parse = match read p.eof expression maxNesting p.pending with
      | .ok (e, rest) => (.ok e, { p with pending := rest })
      | .error (f, rest) => (.error f, { p with pending := recover rest }) := by
  rw [parse, expression, Grammar.read]
  cases Expr.parseChain p.eof .equality maxNesting p.pending <;> rfl

/-- A call of `parse` returns a tree exactly when it is the tree of a word that stops. -/
theorem parse_eq_ok_iff {p : Parser} (heof : p.eof.kind = .eof) {e : Expr} {rest : List Token} :
    (p.parse.1 = .ok e ∧ p.parse.2.pending = rest) ↔ ∃ word, p.pending = word ++ rest ∧
      Derives expression word e ∧ e.nesting ≤ maxNesting ∧ Stops expression rest := by
  rw [expression, ← read_eq_ok_iff heof, parse_eq, expression]
  cases Grammar.read p.eof (.chain .equality) maxNesting p.pending with
  | ok result => simp [Prod.ext_iff]
  | error result => simp

/-- The first call on an expression and nothing else returns its tree and consumes it. -/
theorem parse_ofTokens_of_derives {word : List Token} {e : Expr} (h : Derives expression word e)
    (hn : e.nesting ≤ maxNesting) :
    (ofTokens word).parse.1 = .ok e ∧ (ofTokens word).parse.2.pending = [] := by
  have hpending := pending_ofTokens_of_kind_ne_eof h.kind_ne_eof
  refine (parse_eq_ok_iff (kind_eof_ofTokens word)).mpr ⟨word, ?_, h, hn, stops_nil _⟩
  rw [hpending, List.append_nil]

/-- A call leaves the end as it is. -/
theorem eof_parse (p : Parser) : p.parse.2.eof = p.eof := by
  rw [parse_eq]
  split <;> rfl

/-- Skipping a statement drops tokens from the front. -/
theorem skipStatement_suffix (previous : Token) (ts : List Token) :
    skipStatement previous ts <:+ ts := by
  induction ts generalizing previous with
  | nil => exact List.suffix_refl []
  | cons t ts ih =>
    rw [skipStatement]
    split
    · exact List.suffix_refl _
    · exact (ih t).trans (List.suffix_cons t ts)

/-- Recovery only skips tokens. -/
theorem recover_suffix (ts : List Token) : recover ts <:+ ts := by
  cases ts with
  | nil => exact List.suffix_refl []
  | cons t ts => exact (skipStatement_suffix t ts).trans (List.suffix_cons t ts)

/-- A call of `parse` consumes tokens from the front. -/
theorem pending_parse_suffix {p : Parser} (heof : p.eof.kind = .eof) :
    p.parse.2.pending <:+ p.pending := by
  rw [parse_eq]
  have hmeets := (read_meets_all heof).1 .equality maxNesting p.pending
  generalize hread : read p.eof expression maxNesting p.pending = result
  rw [expression] at hread
  rw [hread] at hmeets
  -- A call that finds an expression has read a word of the grammar; one that does not goes on to
  -- recover.
  obtain ⟨word, hpending, -, -, -⟩ | ⟨word, hstuck, hbegins⟩ := hmeets
  · exact ⟨word, hpending.symm⟩
  · obtain ⟨rest, hrest, hsuffix, -⟩ := hstuck.read_eq_error heof p.pending hbegins
    rw [hrest] at hread
    cases hread
    exact (recover_suffix _).trans hsuffix

/-! ## All calls -/

/-- The parsers that calls of `parse` can make of a parser of `ts`: they keep its end, and consume
its tokens from the front. -/
structure Reached (ts : List Token) (p : Parser) : Prop where
  /-- The end stays the same. -/
  eof_eq : p.eof = (ofTokens ts).eof
  /-- What is pending was pending from the start. -/
  pending_suffix : p.pending <:+ (ofTokens ts).pending

/-- The end of a reached parser is one. -/
theorem Reached.kind_eof {ts : List Token} {p : Parser} (h : Reached ts p) :
    p.eof.kind = .eof := by
  rw [h.eof_eq]
  exact kind_eof_ofTokens ts

/-- A call of `parse` makes a reached parser of a reached parser. -/
theorem Reached.parse {ts : List Token} {p : Parser} (h : Reached ts p) : Reached ts p.parse.2 where
  eof_eq := (eof_parse p).trans h.eof_eq
  pending_suffix := (pending_parse_suffix h.kind_eof).trans h.pending_suffix

/-- All calls do. -/
theorem reached_after (ts : List Token) (calls : Nat) : Reached ts ((ofTokens ts).after calls) := by
  induction calls with
  | zero => exact ⟨rfl, List.suffix_refl _⟩
  | succ calls ih => exact ih.parse

/-- From the cursor on, the token list holds the pending tokens, the end, and tokens that no parser
looks at. -/
theorem Reached.drop_cursor {ts : List Token} {p : Parser} (h : Reached ts p) :
    ∃ behind, (withEof ts).drop (p.cursor ts) = p.pending ++ p.eof :: behind := by
  obtain ⟨behind, hts⟩ := withEof_eq ts
  obtain ⟨consumed, hpending⟩ := h.pending_suffix
  have hcursor : p.cursor ts = consumed.length := by
    rw [cursor, ← hpending, List.length_append]
    omega
  refine ⟨behind, ?_⟩
  rw [hts, ← h.eof_eq, ← hpending, hcursor, List.append_assoc, List.drop_left]

/-- Consuming tokens moves the cursor by their number. -/
theorem Reached.cursor_of_pending {ts : List Token} {p p' : Parser} (h : Reached ts p)
    {word : List Token} (hpending : p.pending = word ++ p'.pending) :
    p'.cursor ts = p.cursor ts + word.length := by
  have hle := h.pending_suffix.length_le
  rw [hpending, List.length_append] at hle
  rw [cursor, cursor, hpending, List.length_append]
  omega

/-- What stands between the cursors before and after tokens are consumed are these tokens. -/
theorem Reached.extract_of_pending {ts : List Token} {p p' : Parser} (h : Reached ts p)
    {word : List Token} (hpending : p.pending = word ++ p'.pending) :
    (withEof ts).extract (p.cursor ts) (p'.cursor ts) = word := by
  obtain ⟨behind, hdrop⟩ := h.drop_cursor
  rw [h.cursor_of_pending hpending, List.extract_eq_take_drop, hdrop, Nat.add_sub_cancel_left,
    hpending, List.append_assoc, List.take_left]

end LoxCalc.Parser
