import LoxCalc.Proofs.Parser.Progress
import LoxCalc.Proofs.Parser.Recovery

/-!
# Where a machine goes on, from any cursor

Recovery can start at any index up to the first end, in any number of nestings. It always comes to
an end, at the first index behind the cursor where a statement could begin, and does nothing but
move the cursor there (`synchronize_exact`). At an end it stays.

A cursor up to the first end has the tokens between it and the end before it (`Cut.stands_drop`),
and these are what the parser of the tokens from the cursor on is to consume
(`Stands.ofTokens_drop`). So the machine's steps apply, and what they skip is what the parser skips.
-/

namespace LoxCalc.Machine

open LoxCalc.Parser (ofTokens withEof endIndex)

section Cuts

variable {c : Cut} {ts : List Token} {n : Nat}

/-- At an index up to the end a machine stands before the tokens that are left. -/
theorem Cut.stands_drop (c : Cut) (h : n ≤ c.before.length) : Stands c (c.before.drop n) n :=
  ⟨c.before.take n, (List.take_append_drop n c.before).symm, List.length_take_of_le h⟩

/-- Nowhere is a machine behind the end. -/
theorem Stands.le_length (h : Stands c ts n) : n ≤ c.before.length :=
  Nat.le.intro h.length_eq

/-- What a machine stands before is what the parser of the tokens from there on is to consume. -/
theorem Stands.ofTokens_drop (h : Stands c ts n) : ofTokens (c.tokens.drop n) = ⟨ts, c.eof⟩ := by
  obtain ⟨consumed, hbefore, rfl⟩ := h
  have hdrop : c.tokens.drop consumed.length = ts ++ c.eof :: c.behind := by
    rw [Cut.tokens, hbefore, List.append_assoc, List.drop_left]
  have hts : ∀ t ∈ ts, t.kind ≠ .eof := fun t ht =>
    c.kind_ne_eof t (hbefore ▸ List.mem_append_right consumed ht)
  rw [hdrop, Parser.ofTokens_append_eof hts c.kind_eof]

end Cuts

/-- From the index `n`, and in any number of nestings, a machine goes on at the index `q`. -/
structure SynchronizesTo (tokens : List Token) (n depth q : Nat) : Prop where
  /-- There is a result. The cursor is at `q` then, and the nestings are the same. -/
  machine : synchronize tokens (.at n depth) = some ((), .at q depth)
  /-- At an end that is where the machine was, elsewhere the first index behind it where a statement
  could begin. -/
  goesOnAt : GoesOnAt tokens n q
  /-- It is not behind the first end. -/
  le_end : q ≤ tokens.findIdx (·.kind == .eof)
  /-- The parser of the tokens from `n` on becomes that of the tokens from `q` on, with the same
  end. -/
  parser : { ofTokens (tokens.drop n) with
      pending := Parser.recover (ofTokens (tokens.drop n)).pending } = ofTokens (tokens.drop q)

/-- In a token list that has its end, recovery from any index up to the first end does nothing but
move the cursor to the first index behind it where a statement could begin, unless it is at an end
already. -/
theorem synchronize_exact {tokens : List Token} (hend : tokens.getLast?.map Token.kind = some .eof)
    {n : Nat} (hn : n ≤ tokens.findIdx (·.kind == .eof)) (depth : Nat) :
    ∃ q, SynchronizesTo tokens n depth q := by
  -- The tokens have their end, so that cutting them adds none.
  have hwithEof : withEof tokens = tokens := if_pos hend
  have hcut : (Cut.ofTokens tokens).tokens = tokens := (Cut.tokens_ofTokens tokens).trans hwithEof
  have hfirst : tokens.findIdx (·.kind == .eof) = (Cut.ofTokens tokens).before.length := by
    have hindex := Parser.endIndex_eq tokens
    rwa [endIndex, hwithEof] at hindex
  rw [hfirst] at hn
  have hstands := (Cut.ofTokens tokens).stands_drop hn
  obtain ⟨q, hmachine, hrest⟩ := hstands.synchronize depth
  have hbefore := hstands.ofTokens_drop
  have hafter := hrest.ofTokens_drop
  have hgoes := hstands.goesOnAt_recover hrest
  rw [hcut] at hmachine hbefore hafter hgoes
  refine ⟨q, hmachine, hgoes, ?_, ?_⟩
  · rw [hfirst]
    exact hrest.le_length
  · rw [hbefore, hafter]

/-- In `nil nil; nil`, with more tokens behind the end, recovery from the first `nil` goes on behind
the semicolon, and stays in three nestings. -/
theorem synchronize_exact_semicolon :
    let tokens : List Token := [⟨.nilWord, "nil", none, 1⟩, ⟨.nilWord, "nil", none, 1⟩,
      ⟨.semicolon, ";", none, 1⟩, ⟨.nilWord, "nil", none, 1⟩, .eof 1,
      ⟨.printWord, "print", none, 1⟩, .eof 1]
    tokens.getLast?.map Token.kind = some .eof ∧ 0 ≤ tokens.findIdx (·.kind == .eof) ∧
      SynchronizesTo tokens 0 3 3 := by
  intro tokens
  have hmachine : synchronize tokens (.at 0 3) = some ((), .at 3 3) := by decide
  have hend : tokens.getLast?.map Token.kind = some .eof := by decide
  obtain ⟨q, hq⟩ := synchronize_exact hend (Nat.zero_le _) 3
  have hstate : State.at 3 3 = .at q 3 := by simpa [hmachine] using hq.machine
  obtain rfl : 3 = q := congrArg State.current hstate
  exact ⟨hend, Nat.zero_le _, hq⟩

end LoxCalc.Machine
