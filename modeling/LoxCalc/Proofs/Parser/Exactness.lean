import LoxCalc.Proofs.Parser.Cursor

/-!
# Parsing is exact

A call of `parse` returns a tree and leaves the cursor behind it exactly when the tokens in between
are an expression with that tree, the tree does not nest too deep, and the token at the new cursor
does not continue the expression (`parse_exact`). It holds for every parser that any calls on any
token list lead to. Since a call has one result, an expression at the cursor is unique, and so is
the tree of any word of the grammar.
-/

namespace LoxCalc.Parser

open Grammar

/-- The tokens from index `c` up to index `c'` are an expression with the tree `e`, which nests no
deeper than a parser goes, and the token at `c'` is no operator that could continue it. -/
def ExpressionAt (tokens : List Token) (c c' : Nat) (e : Expr) : Prop :=
  Derives expression (tokens.extract c c') e ∧ e.nesting ≤ maxNesting ∧
    ∃ t, tokens[c']? = some t ∧ t.kind ∉ binaryOperators

/-- The same in words, for a cursor with pending tokens and an end behind it. -/
theorem expressionAt_iff {tokens pending behind : List Token} {eof : Token} {c : Nat}
    (hdrop : tokens.drop c = pending ++ eof :: behind) (heof : eof.kind = .eof) (c' : Nat)
    (e : Expr) :
    ExpressionAt tokens c c' e ↔ ∃ word rest, pending = word ++ rest ∧ c' = c + word.length ∧
      Derives expression word e ∧ e.nesting ≤ maxNesting ∧ Stops expression rest := by
  rw [ExpressionAt, List.extract_eq_take_drop, hdrop]
  constructor
  · rintro ⟨hd, hn, t, ht, hop⟩
    -- No word goes beyond the end, since none holds one.
    have hle : c' - c ≤ pending.length := by
      refine Nat.le_of_not_lt fun hlt => hd.kind_ne_eof eof ?_ heof
      obtain ⟨n, hn⟩ : ∃ n, c' - c = pending.length + (n + 1) :=
        ⟨c' - c - pending.length - 1, by omega⟩
      rw [hn, List.take_length_add_append, List.take_succ_cons]
      simp
    rw [List.take_append_of_le_length hle] at hd
    have hpos := List.length_pos_iff.mpr hd.word_ne_nil
    rw [List.length_take] at hpos
    refine ⟨pending.take (c' - c), pending.drop (c' - c), (List.take_append_drop _ _).symm, ?_, hd,
      hn, ?_⟩
    · rw [List.length_take]
      omega
    · intro t' ht'
      rw [List.head?_drop] at ht'
      have hnext : tokens[c']? = some t' := by
        rw [show c' = c + (c' - c) by omega, ← List.getElem?_drop, hdrop,
          List.getElem?_append_left (List.getElem?_eq_some_iff.mp ht').1]
        exact ht'
      rw [ht, Option.some.injEq] at hnext
      rw [← hnext]
      exact hop
  · rintro ⟨word, rest, rfl, rfl, hd, hn, hs⟩
    have hword : (word ++ rest ++ eof :: behind).take (c + word.length - c) = word := by
      rw [Nat.add_sub_cancel_left, List.append_assoc, List.take_left]
    rw [hword]
    refine ⟨hd, hn, ?_⟩
    rw [← List.getElem?_drop, hdrop, List.append_assoc, List.getElem?_append_right (Nat.le_refl _),
      Nat.sub_self]
    cases rest with
    | nil => exact ⟨eof, rfl, by rw [heof]; decide⟩
    | cons t rest => exact ⟨t, rfl, (stops_cons _ _ _).mp hs⟩

/-- Every call of `parse`, after any number of calls on any token list, returns a tree `e` and
leaves the cursor at `c'` if and only if the tokens in between are an expression with that tree.
There is at most one such expression, and no word has two trees. -/
theorem parse_exact (ts : List Token) (calls : Nat) (e : Expr) (c' : Nat) :
    let p := (ofTokens ts).after calls
    ((p.parse.1 = .ok e ∧ p.parse.2.cursor ts = c') ↔
      ExpressionAt (withEof ts) (p.cursor ts) c' e) ∧
    (ExpressionAt (withEof ts) (p.cursor ts) c' e →
      ∀ c₂ e₂, ExpressionAt (withEof ts) (p.cursor ts) c₂ e₂ → c₂ = c' ∧ e₂ = e) ∧
    ∀ word e₁ e₂, Derives expression word e₁ → Derives expression word e₂ → e₁ = e₂ := by
  intro p
  have hp : Reached ts p := reached_after ts calls
  obtain ⟨behind, hdrop⟩ := hp.drop_cursor
  have hiff (e : Expr) (c' : Nat) : (p.parse.1 = .ok e ∧ p.parse.2.cursor ts = c') ↔
      ExpressionAt (withEof ts) (p.cursor ts) c' e := by
    rw [expressionAt_iff hdrop hp.kind_eof]
    -- What the call leaves and where its cursor stands say the same, as the parser has been
    -- reached.
    constructor
    · rintro ⟨hok, rfl⟩
      obtain ⟨word, hpending, hd, hn, hs⟩ := (parse_eq_ok_iff hp.kind_eof).mp ⟨hok, rfl⟩
      exact ⟨word, p.parse.2.pending, hpending, hp.cursor_of_pending hpending, hd, hn, hs⟩
    · rintro ⟨word, rest, hpending, rfl, hd, hn, hs⟩
      obtain ⟨hok, rfl⟩ := (parse_eq_ok_iff hp.kind_eof).mpr ⟨word, hpending, hd, hn, hs⟩
      exact ⟨hok, hp.cursor_of_pending hpending⟩
  refine ⟨hiff e c', ?_, fun word e₁ e₂ h₁ h₂ => h₁.tree_unique h₂⟩
  intro h c₂ e₂ h₂
  -- Two expressions at one place would both be the answer of one call.
  obtain ⟨hok, hc⟩ := (hiff e c').mpr h
  obtain ⟨hok₂, hc₂⟩ := (hiff e₂ c₂).mpr h₂
  rw [hok] at hok₂
  injection hok₂ with he
  exact ⟨hc₂.symm.trans hc, he.symm⟩

end LoxCalc.Parser
