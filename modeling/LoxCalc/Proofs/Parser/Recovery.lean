import LoxCalc.Proofs.Parser.EarliestFault
import LoxCalc.Proofs.Parser.Machine.Simulation
import LoxCalc.Proofs.Session.OneLine
import Mathlib

/-!
# Where a parser goes on after a fault

After a fault a parser should go on at the first place behind the offending token where a statement
could begin (`GoesOnAt`). Recovery does so from wherever the cursor is when the fault is found
(`Stands.goesOnAt_recover`), since it goes past the token at the cursor first.

The cursor is at the offending token if that token was not expected, but already behind it if it
nests too deep. Then recovery goes past a token that nothing was wrong with, and the only harm is
done where that token opens a statement: the statement is skipped (`statement_skipped`). On scanned
tokens this is the only way to miss the first place (`recovery_at_boundary_iff`).
-/

namespace LoxCalc

/-- The indices where a statement could begin. The end counts as one. -/
inductive Boundary (tokens : List Token) : Nat → Prop
  /-- The end. -/
  | eof {q : Nat} {t : Token} : tokens[q]? = some t → t.kind = .eof → Boundary tokens q
  /-- A word that opens a statement. -/
  | word {q : Nat} {t : Token} :
    tokens[q]? = some t → t.kind.startsStatement = true → Boundary tokens q
  /-- Behind a semicolon. -/
  | semicolon {q : Nat} {t : Token} :
    tokens[q]? = some t → t.kind = .semicolon → Boundary tokens (q + 1)

/-- After the token at the index `e`, `c` is the first index where a statement could begin. Nothing
comes after an end. -/
def GoesOnAt (tokens : List Token) (e c : Nat) : Prop :=
  ∃ t, tokens[e]? = some t ∧
    if t.kind = .eof then c = e else IsLeast {q | e < q ∧ Boundary tokens q} c

/-! ## First boundaries -/

section Boundaries

variable {tokens : List Token} {n c : Nat}

/-- Whether a token is at a boundary is for the token and the one in front of it to say. -/
theorem boundary_succ_iff {before t : Token} (hbefore : tokens[n]? = some before)
    (ht : tokens[n + 1]? = some t) : Boundary tokens (n + 1) ↔
      t.kind = .eof ∨ t.kind.startsStatement = true ∨ before.kind = .semicolon := by
  constructor
  · intro h
    cases h with
    | eof h hk =>
      rw [Option.some.inj (ht.symm.trans h)]
      exact .inl hk
    | word h hk =>
      rw [Option.some.inj (ht.symm.trans h)]
      exact .inr (.inl hk)
    | semicolon h hk =>
      rw [Option.some.inj (hbefore.symm.trans h)]
      exact .inr (.inr hk)
  · rintro (hk | hk | hk)
    · exact .eof ht hk
    · exact .word ht hk
    · exact .semicolon hbefore hk

/-- A boundary right behind an index is the first one. -/
theorem isLeast_succ (h : Boundary tokens (n + 1)) :
    IsLeast {q | n < q ∧ Boundary tokens q} (n + 1) :=
  ⟨⟨Nat.lt_succ_self n, h⟩, fun _ hq => hq.1⟩

/-- Where there is no boundary, the first one behind it is the same. -/
theorem isLeast_of_not_boundary (hnot : ¬Boundary tokens (n + 1))
    (h : IsLeast {q | n + 1 < q ∧ Boundary tokens q} c) :
    IsLeast {q | n < q ∧ Boundary tokens q} c := by
  refine ⟨⟨Nat.lt_of_succ_lt h.1.1, h.1.2⟩, fun q ⟨hlt, hq⟩ => h.2 ⟨?_, hq⟩⟩
  have hne : q ≠ n + 1 := fun heq => hnot (heq ▸ hq)
  omega

/-- Going on after the next token is going on after this one, unless a statement begins at the next
token. -/
theorem goesOnAt_iff_of_succ {t : Token} (ht : tokens[n]? = some t) (heof : t.kind ≠ .eof)
    (hsemicolon : t.kind ≠ .semicolon) (h : GoesOnAt tokens (n + 1) c) :
    GoesOnAt tokens n c ↔ ¬∃ t', tokens[n + 1]? = some t' ∧ t'.kind.startsStatement = true := by
  have hhere : GoesOnAt tokens n c ↔ IsLeast {q | n < q ∧ Boundary tokens q} c := by
    simp [GoesOnAt, ht, heof]
  obtain ⟨next, hnext, hc⟩ := h
  have hboundary := boundary_succ_iff ht hnext
  rw [hhere]
  constructor
  · rintro hleast ⟨t', ht', hstarts⟩
    obtain rfl : next = t' := Option.some.inj (hnext.symm.trans ht')
    have hkind : next.kind ≠ .eof := by
      intro hk
      rw [hk] at hstarts
      cases hstarts
    rw [if_neg hkind] at hc
    -- The boundary was gone past.
    have hle : c ≤ n + 1 := hleast.2 ⟨Nat.lt_succ_self n, .word hnext hstarts⟩
    have hlt : n + 1 < c := hc.1.1
    omega
  · intro hnot
    by_cases hkind : next.kind = .eof
    · rw [if_pos hkind] at hc
      rw [hc]
      exact isLeast_succ (.eof hnext hkind)
    · rw [if_neg hkind] at hc
      refine isLeast_of_not_boundary ?_ hc
      rw [hboundary]
      rintro (hk | hk | hk)
      · exact hkind hk
      · exact hnot ⟨next, hnext, hk⟩
      · exact hsemicolon hk

end Boundaries

/-! ## Recovery -/

namespace Machine

variable {c : Cut} {ts : List Token} {n n' : Nat}

/-- Behind some of the tokens stand the others. -/
theorem Stands.of_append {word : List Token} (h : Stands c (word ++ ts) n) :
    Stands c ts (n + word.length) := by
  obtain ⟨consumed, hbefore, rfl⟩ := h
  exact ⟨consumed ++ word, by rw [hbefore, List.append_assoc], List.length_append⟩

/-- Behind a token the first boundary is where skipping ends. -/
theorem Stands.isLeast_skipStatement {before : Token} (h : Stands c (before :: ts) n)
    (h' : Stands c (Parser.skipStatement before ts) n') :
    IsLeast {q | n < q ∧ Boundary c.tokens q} n' := by
  induction ts generalizing before n with
  | nil =>
    rw [h'.unique h.forward]
    exact isLeast_succ (.eof h.forward.getElem? c.kind_eof)
  | cons t ts ih =>
    have hboundary := boundary_succ_iff h.getElem? h.forward.getElem?
    rw [List.headD_cons, List.headD_cons] at hboundary
    rw [Parser.skipStatement] at h'
    by_cases hstop : before.kind = .semicolon ∨ t.kind.startsStatement = true
    · rw [if_pos hstop] at h'
      rw [h'.unique h.forward]
      exact isLeast_succ (hboundary.mpr (.inr hstop.symm))
    · -- The loop goes on where there is no boundary, which leaves the first one the same.
      rw [if_neg hstop] at h'
      refine isLeast_of_not_boundary ?_ (ih h.forward h')
      rw [hboundary]
      rintro (hk | hk)
      · exact h.forward.kind_ne_eof hk
      · exact hstop hk.symm

/-- Recovery goes on where it should after the token at the cursor. -/
theorem Stands.goesOnAt_recover (h : Stands c ts n) (h' : Stands c (Parser.recover ts) n') :
    GoesOnAt c.tokens n n' := by
  refine ⟨_, h.getElem?, ?_⟩
  cases ts with
  | nil =>
    rw [List.headD_nil, if_pos c.kind_eof]
    exact h'.unique h
  | cons t ts =>
    rw [List.headD_cons, if_neg h.kind_ne_eof]
    exact h.isLeast_skipStatement h'

end Machine

/-! ## Offending tokens -/

/-- What is consumed beyond the tokens that fit is a token that nests too deep, or a number or
string without its literal. -/
theorem Grammar.Stuck.overrun_cases {s : Symbol} {room : Nat} {word : List Token}
    {f : GrammarFault} (h : Stuck s room word f) :
    f.cause ≠ .tooMuchNesting ∧ overrun f = 0 ∨
    f.cause = .tooMuchNesting ∧ overrun f = 1 ∧ f.token.kind ∈ [.bang, .minus, .leftParen] ∨
    f.cause ≠ .tooMuchNesting ∧ f.token.kind ∈ [.number, .string] ∧ f.token.literal = none := by
  -- The rules that contain others pass their faults on; the three others are where faults come
  -- from.
  induction h with
  | operand _ ih | binary _ _ _ _ ih | unary _ _ ih | grouping _ _ ih => exact ih
  | unclosed _ _ _ _ _ => exact .inl ⟨nofun, rfl⟩
  | nested hk => exact .inr (.inl ⟨rfl, rfl, by simpa [or_assoc] using hk⟩)
  | @unexpected _ t _ _ hv =>
    by_cases hk : t.kind = .number ∨ t.kind = .string
    · refine .inr (.inr ⟨nofun, by simpa using hk, ?_⟩)
      rcases hk with hk | hk <;> simpa [Expr.literalOf?, hk] using hv
    · exact .inl ⟨nofun, by simp [overrun, hk]⟩

/-- A number or string that was taken from a source carries its literal. -/
theorem Lexeme.Taken.literal_ne_none {l : Lexeme} {rest : List Unicode.Cluster} (h : Taken l rest)
    {kind : TokenKind} {literal : Option Literal} (hl : l.label = .token kind literal)
    (hkind : kind ∈ [.number, .string]) : literal ≠ none := by
  have hsymbols : ∀ p ∈ symbols, p.2 ∉ [.number, .string] := by decide
  have hwords : ∀ kind ∈ TokenKind.identifier :: TokenKind.reserved.map Prod.snd,
      kind ∉ [.number, .string] := by decide
  have hform := h.tokenForm hl
  generalize l.body = body at hform
  -- Only numbers and strings are of the two kinds, and both carry a literal.
  cases hform with
  | symbol hmem => exact absurd hkind (hsymbols _ hmem)
  | word hmem _ => exact absurd hkind (hwords _ hmem)
  | number _ _ | string _ => exact Option.some_ne_none _

namespace Parser

open Grammar

/-- The index in the token list `ts` of the token that the next call of `parse` finds a fault at. -/
def faultAt? (ts : List Token) (p : Parser) : Option Nat :=
  p.faultIndex?.map (p.cursor ts + ·)

/-- The next call of a parser of `ts` finds a fault at the token with the index `e`, and goes on
behind it. -/
structure RecoversFrom (ts : List Token) (p : Parser) (f : GrammarFault) (e : Nat) : Prop where
  /-- The fault is at this index. -/
  faultAt : p.faultAt? ts = some e
  /-- Its token is the one there. -/
  token : (withEof ts)[e]? = some f.token
  /-- The tokens before it, from the cursor on, begin an expression which it does not fit into. -/
  stuck : Stuck expression maxNesting ((withEof ts).extract (p.cursor ts) e) f
  /-- The parser goes on where it should, unless the token nests too deep and the one behind it
  opens a statement. -/
  goesOnAt_iff : GoesOnAt (withEof ts) e (p.parse.2.cursor ts) ↔
    ¬(f.cause = .tooMuchNesting ∧
      ∃ t, (withEof ts)[e + 1]? = some t ∧ t.kind.startsStatement = true)
  /-- If the token nests too deep the parser goes on as if the fault were at the one behind it. -/
  goesOnAt_succ : f.cause = .tooMuchNesting →
    GoesOnAt (withEof ts) (e + 1) (p.parse.2.cursor ts)

/-- A call that finds a fault goes on after what it has consumed. -/
theorem Reached.goesOnAt {ts : List Token} {p : Parser} (h : Reached ts p) {word : List Token}
    {f : GrammarFault} (hstuck : Stuck expression maxNesting word f)
    (hbegins : word ++ [f.token] <+: p.pending ++ [p.eof]) :
    GoesOnAt (withEof ts) (p.cursor ts + word.length + overrun f) (p.parse.2.cursor ts) := by
  obtain ⟨rest, hread, ⟨consumed, hpending⟩, hlen⟩ :=
    hstuck.read_eq_error h.kind_eof p.pending hbegins
  have hrecover : p.parse.2.pending = recover rest := by rw [parse_eq, hread]
  have hbefore := Machine.stands_cursor h
  have hafter := Machine.stands_cursor h.parse
  rw [← hpending] at hbefore
  rw [hrecover] at hafter
  -- What has been consumed is the word, and the overrun is what was taken of the offending token.
  have hconsumed : p.cursor ts + word.length + overrun f = p.cursor ts + consumed.length := by
    rw [← hpending, List.length_append] at hlen
    omega
  rw [hconsumed, ← Machine.Cut.tokens_ofTokens]
  exact hbefore.of_append.goesOnAt_recover hafter

/-- The offending token stands behind the tokens that fit. -/
theorem Reached.getElem?_of_begins {ts : List Token} {p : Parser} (h : Reached ts p)
    {word : List Token} {t : Token} (hbegins : word ++ [t] <+: p.pending ++ [p.eof]) :
    (withEof ts)[p.cursor ts + word.length]? = some t ∧
    (withEof ts).extract (p.cursor ts) (p.cursor ts + word.length) = word := by
  obtain ⟨tail, hpending, htail⟩ := exists_eq_append_of_begins word (by simp) hbegins
  -- The token may be the end, which is not pending but stands behind what is.
  constructor
  · obtain ⟨behind, hdrop⟩ := h.drop_cursor
    rw [← List.getElem?_drop, hdrop, hpending, List.append_assoc,
      List.getElem?_append_right (Nat.le_refl _), Nat.sub_self]
    cases tail <;> simpa [eq_comm] using htail
  · have hword : p.pending = word ++ (Parser.mk tail p.eof).pending := hpending
    have hextract := h.extract_of_pending hword
    rwa [h.cursor_of_pending hword] at hextract

/-- If no number or string lacks its literal, only a token that nests too deep is consumed. -/
theorem Reached.overrun_cases {ts : List Token} {p : Parser} (h : Reached ts p) {word : List Token}
    {f : GrammarFault} (hliteral : ∀ t ∈ ts, t.kind ∈ [.number, .string] → t.literal ≠ none)
    (hstuck : Stuck expression maxNesting word f)
    (hbegins : word ++ [f.token] <+: p.pending ++ [p.eof]) :
    f.cause ≠ .tooMuchNesting ∧ overrun f = 0 ∨
    f.cause = .tooMuchNesting ∧ overrun f = 1 ∧ f.token.kind ∈ [.bang, .minus, .leftParen] := by
  refine hstuck.overrun_cases.imp_right fun hover => hover.resolve_right ?_
  -- The third case needs a token that lacks its literal, and there is none such.
  rintro ⟨-, hkind, hnone⟩
  have hmem : f.token ∈ p.pending ++ [p.eof] :=
    hbegins.subset (List.mem_append_right _ (List.mem_singleton_self _))
  rcases List.mem_append.mp hmem with hpending | heof
  · have hts : f.token ∈ ts :=
      (List.takeWhile_sublist _).subset (h.pending_suffix.subset hpending)
    exact hliteral _ hts hkind hnone
  · rw [List.mem_singleton.mp heof, h.kind_eof] at hkind
    exact absurd hkind (by decide)

/-- If no number or string lacks its literal, every call that finds a fault recovers from it. -/
theorem Reached.recoversFrom {ts : List Token} {p : Parser} (h : Reached ts p) {f : GrammarFault}
    (hliteral : ∀ t ∈ ts, t.kind ∈ [.number, .string] → t.literal ≠ none)
    (hf : p.parse.1 = .error f) : ∃ e, RecoversFrom ts p f e := by
  obtain ⟨word, hstuck, hbegins⟩ := stuck_of_parse_eq_error h.kind_eof hf
  obtain ⟨-, hindex⟩ := parse_eq_error_of_stuck h.kind_eof hstuck hbegins
  obtain ⟨htoken, hextract⟩ := h.getElem?_of_begins hbegins
  have hcases := h.overrun_cases hliteral hstuck hbegins
  have hgoes := h.goesOnAt hstuck hbegins
  refine ⟨p.cursor ts + word.length, ?_⟩
  constructor
  case faultAt => rw [faultAt?, hindex, Option.map_some]
  case token => exact htoken
  case stuck => rwa [hextract]
  case goesOnAt_iff =>
    rcases hcases with ⟨hcause, hover⟩ | ⟨hcause, hover, hkind⟩
    · -- The cursor was at the offending token.
      rw [hover, Nat.add_zero] at hgoes
      exact iff_of_true hgoes fun hskipped => hcause hskipped.1
    · -- It was behind the token, which by itself ends no statement.
      rw [hover] at hgoes
      have hne : f.token.kind ≠ .eof ∧ f.token.kind ≠ .semicolon := by
        constructor <;> intro hk <;> rw [hk] at hkind <;> exact absurd hkind (by decide)
      rw [goesOnAt_iff_of_succ htoken hne.1 hne.2 hgoes, and_iff_right hcause]
  case goesOnAt_succ =>
    intro hdeep
    obtain ⟨-, hover, -⟩ := hcases.resolve_left fun hother => hother.1 hdeep
    rwa [hover] at hgoes

/-- Whatever call on whatever scanned source finds a fault, the parser goes on at the first place
behind the offending token where a statement could begin, unless the token nests too deep and the
one right behind it opens a statement. -/
theorem recovery_at_boundary_iff (source : String) (calls : Nat) (f : GrammarFault)
    (h : ((ofTokens (Scan.ofSource source).allTokens).after calls).parse.1 = .error f) :
    ∃ e, RecoversFrom (Scan.ofSource source).allTokens
      ((ofTokens (Scan.ofSource source).allTokens).after calls) f e := by
  refine (reached_after _ calls).recoversFrom ?_ h
  intro t ht hkind
  -- The scanner gives numbers and strings their literals, and the end is neither.
  rcases List.mem_append.mp ht with htoken | heof
  · obtain ⟨l, rest, htaken, hlabel, -⟩ := Scan.exists_taken_of_mem_tokens htoken
    exact htaken.literal_ne_none hlabel hkind
  · have heof' : t.kind = .eof := by rw [List.mem_singleton.mp heof]; rfl
    rw [heof'] at hkind
    exact absurd hkind (by decide)

/-- In `(nil nil print` the second `nil` stands where a parenthesis is expected, and the parser goes
on at the statement behind it. -/
theorem recovery_at_boundary_unclosed :
    let ts := (Scan.ofSource "(nil nil print").allTokens
    let f : GrammarFault := ⟨.expectedRightParenthesis, ⟨.nilWord, "nil", none, 1⟩⟩
    (ofTokens ts).parse.1 = .error f ∧ RecoversFrom ts (ofTokens ts) f 2 ∧
      GoesOnAt (withEof ts) 2 3 := by
  intro ts f
  have hts : ts = [⟨.leftParen, "(", none, 1⟩, ⟨.nilWord, "nil", none, 1⟩,
      ⟨.nilWord, "nil", none, 1⟩, ⟨.printWord, "print", none, 1⟩, .eof 1] := by
    unfold ts
    cbv
  have hf : (ofTokens ts).parse.1 = .error f := by
    rw [hts]
    cbv
  have hindex : (ofTokens ts).faultAt? ts = some 2 := by
    rw [hts]
    cbv
  have hcursor : (ofTokens ts).parse.2.cursor ts = 3 := by
    rw [hts]
    cbv
  obtain ⟨e, hrecovers⟩ := recovery_at_boundary_iff "(nil nil print" 0 f hf
  obtain rfl : 2 = e := Option.some.inj (hindex.symm.trans hrecovers.faultAt)
  refine ⟨hf, hrecovers, ?_⟩
  rw [← hcursor]
  apply hrecovers.goesOnAt_iff.mpr
  rintro ⟨hcause, -⟩
  cases hcause

set_option maxRecDepth 4096 in
/-- Of 101 parentheses the last one nests too deep. The parser goes past it and past the `print`
behind it, and goes on at the end. -/
theorem statement_skipped :
    let ts := (Scan.ofSource (String.ofList (List.replicate 101 '(' ++ "print".toList))).allTokens
    let f : GrammarFault := ⟨.tooMuchNesting, ⟨.leftParen, "(", none, 1⟩⟩
    (ofTokens ts).parse.1 = .error f ∧ (ofTokens ts).faultAt? ts = some 100 ∧
      (withEof ts)[101]? = some ⟨.printWord, "print", none, 1⟩ ∧
      (ofTokens ts).parse.2.cursor ts = 102 ∧
      ¬GoesOnAt (withEof ts) 100 ((ofTokens ts).parse.2.cursor ts) := by
  intro ts f
  have hts : ts = List.replicate 101 ⟨.leftParen, "(", none, 1⟩ ++
      [⟨.printWord, "print", none, 1⟩, .eof 1] := by
    unfold ts
    cbv
  have hf : (ofTokens ts).parse.1 = .error f := by
    rw [hts]
    cbv
  have hindex : (ofTokens ts).faultAt? ts = some 100 := by
    rw [hts]
    cbv
  have hcursor : (ofTokens ts).parse.2.cursor ts = 102 := by
    rw [hts]
    cbv
  have hprint : (withEof ts)[101]? = some ⟨.printWord, "print", none, 1⟩ := by
    rw [hts]
    cbv
  refine ⟨hf, hindex, hprint, hcursor, ?_⟩
  rintro ⟨t, -, hfirst⟩
  rw [hcursor] at hfirst
  split at hfirst
  · omega
  · have hle : 102 ≤ 101 := hfirst.2 ⟨by decide, .word hprint rfl⟩
    omega

end Parser

end LoxCalc
