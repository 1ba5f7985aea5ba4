import LoxCalc.Proofs.Grammar.Stuck
import LoxCalc.Proofs.Parser.Reading

/-!
# The outcomes of reading a symbol

Reading a symbol has two outcomes, and the grammar accounts for both. `read_meets_all` is the
one induction over the parsing functions: a tree belongs to a word of the symbol that stops where
the parser stopped, with room for its nesting, and a fault is a place where the symbol is stuck.

Both are converses of facts about the grammar alone: words are read as their trees
(`Derives.read_eq_ok`), and where a symbol is stuck the parser finds the fault, whatever follows the
offending token (`Stuck.read_eq_error`). So the grammar decides every outcome (`read_eq_ok_iff`,
`read_eq_error_iff`).
-/

namespace LoxCalc.Grammar

open LoxCalc.Expr (parseChain parseOperand literalOf?)

/-- What the grammar says about the result of reading the symbol `s` from `ts`. -/
inductive Meets (eof : Token) (s : Symbol) (room : Nat) (ts : List Token) :
    Except (GrammarFault × List Token) (Expr × List Token) → Prop
  /-- A tree is the tree of a word that stops. -/
  | ok (word : List Token) {rest : List Token} {e : Expr} :
    ts = word ++ rest → Derives s word e → e.nesting ≤ room → Stops s rest →
    Meets eof s room ts (.ok (e, rest))
  /-- A fault is where the symbol is stuck. -/
  | error (word : List Token) {rest : List Token} {f : GrammarFault} :
    Stuck s room word f → word ++ [f.token] <+: ts ++ [eof] → Meets eof s room ts (.error (f, rest))

/-- The end begins no expression and continues none. -/
theorem stuck_eof {eof : Token} (heof : eof.kind = .eof) (room : Nat) :
    Stuck .unary room [] ⟨.expectedExpression, eof⟩ := by
  refine .unexpected ?_ ?_ ?_ <;> simp [heof, literalOf?]

/-- What stands behind a parenthesized expression is its end, or where it is stuck. -/
theorem readClosing_meets {eof opening : Token} (heof : eof.kind = .eof)
    (ho : opening.kind = .leftParen) {room : Nat} {word rest : List Token} {e : Expr}
    (hd : Derives expression word e) (hn : e.nesting ≤ room) (hs : Stops expression rest) :
    Meets eof .unary (room + 1) (opening :: (word ++ rest)) (readClosing eof e rest) := by
  -- The word is closed, or else stuck at what stands behind it, be it the end.
  cases rest with
  | nil =>
    refine .error _ (.unclosed ho hd hn ?_ ?_) (by simp)
    · simp [heof, binaryOperators]
    · simp [heof]
  | cons t rest =>
    rw [readClosing]
    split
    · next hc =>
      refine .ok (opening :: word ++ [t]) (by simp) (.primary (.grouping ho hd hc)) ?_ ?_
      · rw [Expr.nesting_grouping]
        omega
      · simp [Stops, continuing]
    · next hc =>
      refine .error _ (.unclosed ho hd hn ?_ hc) (by simp)
      rwa [stops_cons] at hs

/-- Every result of the parsing functions is what the grammar says it is. -/
theorem read_meets_all {eof : Token} (heof : eof.kind = .eof) :
    (∀ level room ts, Meets eof (.chain level) room ts (read eof (.chain level) room ts)) ∧
    (∀ level room left ts, ∀ word, Derives (.chain level) word left → left.nesting ≤ room →
      Stops (operand level) ts →
      Meets eof (.chain level) room (word ++ ts) (readFrom eof level room left ts)) ∧
    (∀ level room ts, Meets eof (operand level) room ts (read eof (operand level) room ts)) ∧
    ∀ room ts, Meets eof .unary room ts (read eof .unary room ts) := by
  -- The cases of the principle speak of the parsing functions, the motives of reading.
  have hresult {level room ts o} (h : parseOperand eof level room ts = o) :
      read eof (operand level) room ts = o.result := by
    rw [← result_parseOperand, h]
  apply Expr.parseChain.mutual_induct eof
  case case1 =>
    -- A chain whose first operand is there.
    intro level room ts left rest shorter hparse ih ihfrom
    rw [hresult hparse] at ih
    rw [read_chain, hresult hparse]
    obtain ⟨_, rfl, hd, hn, hs⟩ | _ := ih
    exact ihfrom _ (.operand hd) hn hs
  case case2 =>
    intro level room ts f rest hparse ih
    rw [hresult hparse] at ih
    rw [read_chain, hresult hparse]
    obtain _ | ⟨_, hstuck, hbegins⟩ := ih
    exact .error _ (.operand hstuck) hbegins
  case case3 =>
    intro level room left word hd hn _
    rw [readFrom_nil]
    exact .ok _ rfl hd hn (stops_nil _)
  case case4 =>
    -- A chain that goes on with an operator and one more operand.
    intro level room left operator ts hop right rest shorter hparse ih ihfrom word hd hn _
    rw [hasOperator_iff] at hop
    rw [hresult hparse] at ih
    rw [readFrom_operator eof level room operator ts left hop, hresult hparse]
    obtain ⟨_, rfl, hdr, hnr, hsr⟩ | _ := ih
    have hfrom := ihfrom _ (.binary hd hop hdr)
      (by rw [Expr.nesting_binary]; exact Nat.max_le.mpr ⟨hn, hnr⟩) hsr
    rwa [List.append_assoc, List.cons_append] at hfrom
  case case5 =>
    intro level room left operator ts hop f rest hparse ih word hd hn _
    rw [hasOperator_iff] at hop
    rw [hresult hparse] at ih
    rw [readFrom_operator eof level room operator ts left hop, hresult hparse]
    obtain _ | ⟨_, hstuck, hbegins⟩ := ih
    refine .error _ (.binary hd hn hop hstuck) ?_
    simpa using hbegins
  case case6 =>
    intro level room left operator ts hop word hd hn hs
    rw [hasOperator_iff] at hop
    rw [readFrom_stop eof level room operator ts left hop]
    rw [stops_cons] at hs
    refine .ok _ rfl hd hn ?_
    rw [stops_cons, mem_continuing_chain, not_or]
    exact ⟨hop, hs⟩
  case case7 | case8 | case9 | case10 =>
    intro room ts ih
    exact ih
  case case11 =>
    intro room
    rw [read_nil]
    exact .error _ (stuck_eof heof room) (List.prefix_refl _)
  case case12 =>
    intro operator ts hop
    rw [isUnaryOperator_iff] at hop
    rw [read_unary_zero eof operator ts hop]
    exact .error _ (.nested (.inl hop)) (by simp)
  case case13 =>
    intro operator ts hop room ih
    rw [isUnaryOperator_iff] at hop
    rw [Nat.succ_eq_add_one, read_unary_succ eof room operator ts hop]
    generalize read eof .unary room ts = result at ih ⊢
    obtain ⟨_, rfl, hd, hn, hs⟩ | ⟨_, hstuck, hbegins⟩ := ih
    · refine .ok _ (List.cons_append ..).symm (.unary hop hd) ?_ hs
      rw [Expr.nesting_unary]
      exact Nat.succ_le_succ hn
    · exact .error _ (.unary hop hstuck) (List.cons_prefix_cons.mpr ⟨rfl, hbegins⟩)
  case case14 =>
    intro opening ts _ ho
    rw [read_grouping_zero eof opening ts ho]
    exact .error _ (.nested (.inr ho)) (by simp)
  case case15 =>
    intro opening ts _ ho room ih
    rw [Nat.succ_eq_add_one, read_grouping_succ eof room opening ts ho]
    change Meets eof expression room ts (read eof expression room ts) at ih
    generalize read eof expression room ts = result at ih ⊢
    obtain ⟨_, rfl, hd, hn, hs⟩ | ⟨_, hstuck, hbegins⟩ := ih
    · exact readClosing_meets heof ho hd hn hs
    · exact .error _ (.grouping ho hstuck) (List.cons_prefix_cons.mpr ⟨rfl, hbegins⟩)
  case case16 =>
    intro room t ts _ _ value hv
    rw [read_literal eof room t ts value hv]
    exact .ok [t] rfl (.primary (derives_of_literalOf? hv)) (Nat.zero_le _)
      (by simp [Stops, continuing])
  case case17 | case18 =>
    intro room t ts hop hparen hv _
    rw [isUnaryOperator_iff] at hop
    rw [read_unexpected eof room t ts hop hparen hv]
    exact .error _ (.unexpected hop hparen hv) (by simp)

/-- The parser finds a tree exactly when a word of the symbol stops somewhere in the tokens, and its
tree fits into the room. -/
theorem read_eq_ok_iff {eof : Token} (heof : eof.kind = .eof) {level : Level} {room : Nat}
    {ts rest : List Token} {e : Expr} :
    read eof (.chain level) room ts = .ok (e, rest) ↔
      ∃ word, ts = word ++ rest ∧ Derives (.chain level) word e ∧ e.nesting ≤ room ∧
        Stops (.chain level) rest := by
  -- What is read meets the grammar; the converse is that a word of the grammar is read as a whole.
  constructor
  · intro h
    have hmeets := (read_meets_all heof).1 level room ts
    rw [h] at hmeets
    obtain ⟨_, hts, hd, hn, hs⟩ | _ := hmeets
    exact ⟨_, hts, hd, hn, hs⟩
  · rintro ⟨word, rfl, hd, hn, hs⟩
    exact hd.read_eq_ok hn hs eof

/-! ## Faults -/

/-- Tokens that begin with `word` and go on, the end included, begin with it before the end. -/
theorem exists_eq_append_of_begins {eof : Token} (word : List Token) {more ts : List Token}
    (hmore : more ≠ []) (h : word ++ more <+: ts ++ [eof]) :
    ∃ tail, ts = word ++ tail ∧ more <+: tail ++ [eof] := by
  have hlt : word.length < (word ++ more).length := by
    rw [List.length_append]
    have := List.length_pos_iff.mpr hmore
    omega
  -- What follows the word is not nothing, so that the word does not reach the end.
  have hword : word <+: ts := by
    have hle := h.length_le
    simp only [List.length_append, List.length_singleton] at hle hlt
    exact List.prefix_of_prefix_length_le ((List.prefix_append word more).trans h)
      (List.prefix_append ts [eof]) (by omega)
  obtain ⟨tail, rfl⟩ := hword
  rw [List.append_assoc, List.prefix_append_right_inj] at h
  exact ⟨tail, rfl, h⟩

/-- How many tokens the parser has consumed beyond those that fit, when it finds a fault: it goes
past a prefix operator or parenthesis before it counts it, and past a number or string before it
misses its literal. -/
def overrun (f : GrammarFault) : Nat :=
  match f.cause with
  | .tooMuchNesting => 1
  | .expectedExpression => if f.token.kind = .number ∨ f.token.kind = .string then 1 else 0
  | .expectedRightParenthesis => 0

/-- Where a symbol is stuck the parser finds the fault, whatever follows its token. It leaves over
what follows `word`, without the token if that is consumed. -/
theorem Stuck.read_eq_error {s : Symbol} {room : Nat} {word : List Token} {f : GrammarFault}
    (h : Stuck s room word f) {eof : Token} (heof : eof.kind = .eof) :
    ∀ ts, word ++ [f.token] <+: ts ++ [eof] → ∃ rest, read eof s room ts = .error (f, rest) ∧
      rest <:+ ts ∧ rest.length + word.length + overrun f = ts.length := by
  induction h with
  | @operand level room word f _ ih =>
    intro ts hts
    obtain ⟨rest, hread, hsuffix, hlen⟩ := ih ts hts
    refine ⟨rest, ?_, hsuffix, hlen⟩
    rw [read_chain, hread]; rfl
  | @binary level room word word' left operator f hd hn hop _ ih =>
    intro ts hts
    rw [List.append_assoc] at hts
    obtain ⟨tail, rfl, htail⟩ := exists_eq_append_of_begins word (by simp) hts
    obtain ⟨tail, rfl, htail'⟩ := exists_eq_append_of_begins [operator] (by simp) htail
    obtain ⟨rest, hread, hsuffix, hlen⟩ := ih tail htail'
    -- The chain up to the operator is read first, and goes on with the operand that is stuck.
    have hstop : Stops (Grammar.operand level) (operator :: tail) :=
      (stops_cons _ _ _).mpr (not_mem_continuing_operand hop)
    refine ⟨rest, ?_, ?_, ?_⟩
    · rw [List.singleton_append, hd.readsTo eof room hn _ hstop,
        readFrom_operator eof level room operator tail left hop, hread]; rfl
    · exact hsuffix.trans (((List.suffix_cons operator tail)).trans (List.suffix_append word _))
    · simp only [List.length_append, List.length_cons, List.length_nil]
      omega
  | @unary room operator word f hop _ ih =>
    intro ts hts
    obtain ⟨tail, rfl, htail⟩ := exists_eq_append_of_begins [operator] (by simp) hts
    obtain ⟨rest, hread, hsuffix, hlen⟩ := ih tail htail
    refine ⟨rest, ?_, hsuffix.trans (List.suffix_cons operator tail), ?_⟩
    · rw [List.singleton_append, read_unary_succ eof room operator tail hop, hread]; rfl
    · simp only [List.length_append, List.length_cons, List.length_nil]
      omega
  | @grouping room opening word f ho _ ih =>
    intro ts hts
    obtain ⟨tail, rfl, htail⟩ := exists_eq_append_of_begins [opening] (by simp) hts
    obtain ⟨rest, hread, hsuffix, hlen⟩ := ih tail htail
    refine ⟨rest, ?_, hsuffix.trans (List.suffix_cons opening tail), ?_⟩
    · rw [List.singleton_append, read_grouping_succ eof room opening tail ho, hread]; rfl
    · simp only [List.length_append, List.length_cons, List.length_nil]
      omega
  | @unclosed room opening t word e ho hd hn hop hc =>
    -- The expression inside is read to its end, since the offending token does not continue it.
    intro ts hts
    obtain ⟨tail, rfl, htail⟩ := exists_eq_append_of_begins (opening :: word) (by simp) hts
    have hstop : Stops expression tail := by
      cases tail with
      | nil => exact stops_nil _
      | cons t' tail =>
        obtain rfl : t = t' := by simpa using htail
        exact (stops_cons _ _ _).mpr hop
    rw [List.cons_append, read_grouping_succ eof room opening _ ho, hd.read_eq_ok hn hstop eof]
    cases tail with
    | nil =>
      obtain rfl : t = eof := by simpa using htail
      exact ⟨[], rfl, List.nil_suffix, by simp [overrun]⟩
    | cons t' tail =>
      obtain rfl : t = t' := by simpa using htail
      refine ⟨t :: tail, by simp [Except.bind, readClosing, hc], ?_, ?_⟩
      · exact (List.suffix_append word _).trans (List.suffix_cons opening _)
      · simp [overrun]
        omega
  | @nested t ht =>
    intro ts hts
    cases ts with
    | nil =>
      -- The end does not nest.
      obtain rfl : t = eof := by simpa using hts
      simp [heof] at ht
    | cons t' ts =>
      obtain rfl : t = t' := by simpa using hts
      refine ⟨ts, ?_, List.suffix_cons t ts, by simp [overrun]⟩
      rcases ht with hop | hparen
      · exact read_unary_zero eof t ts hop
      · exact read_grouping_zero eof t ts hparen
  | @unexpected room t hop hparen hv =>
    intro ts hts
    cases ts with
    | nil =>
      obtain rfl : t = eof := by simpa using hts
      exact ⟨[], read_nil t room, List.nil_suffix, by simp [overrun, heof]⟩
    | cons t' ts =>
      obtain rfl : t = t' := by simpa using hts
      refine ⟨_, read_unexpected eof room t ts hop hparen hv, ?_, ?_⟩
      · split
        · exact List.suffix_cons t ts
        · exact List.suffix_refl _
      · split
        · next hk => simp [overrun, hk]
        · next hk => simp [overrun, hk]

/-- The parser finds a fault exactly where the grammar is stuck. -/
theorem read_eq_error_iff {eof : Token} (heof : eof.kind = .eof) {level : Level} {room : Nat}
    {ts : List Token} {f : GrammarFault} :
    (∃ rest, read eof (.chain level) room ts = .error (f, rest)) ↔
      ∃ word, Stuck (.chain level) room word f ∧ word ++ [f.token] <+: ts ++ [eof] := by
  constructor
  · rintro ⟨rest, h⟩
    have hmeets := (read_meets_all heof).1 level room ts
    rw [h] at hmeets
    obtain _ | ⟨_, hstuck, hbegins⟩ := hmeets
    exact ⟨_, hstuck, hbegins⟩
  · rintro ⟨word, hstuck, hbegins⟩
    obtain ⟨rest, hread, -⟩ := hstuck.read_eq_error heof ts hbegins
    exact ⟨rest, hread⟩

end LoxCalc.Grammar
