import LoxCalc.Proofs.Expr.FirstFault
import LoxCalc.Proofs.Expr.Unambiguous
import LoxCalc.Proofs.Session.OneLine
import Mathlib

/-!
# Programs that are shown alike

The trees of two programs without strings that are shown as the same text are equal but for the
lines of their tokens, and so the programs do the same (`same_of_shown_alike`). Trees of sources are
spelled: the scanner gives each operator its lexeme and no number a sign (`Lexeme.Taken.isScanned`),
and the parser puts nothing else into a tree (`Grammar.Derives.spelled`). Evaluation does not look
at lines, neither for a value nor on its way to a fault (`Expr.RaisedAt.relocate`).
-/

namespace LoxCalc

open Number (ofPattern infinityBits)

/-! ## Scanned tokens -/

/-- What a scanner makes a token of: an operator has its lexeme and no literal, and a literal is a
string or plain. -/
structure Token.IsScanned (t : Token) : Prop where
  operator : t.kind ∈ operatorLexemes.map Prod.fst → t.IsOperator
  literal : ∀ value, t.literal = some value → value.IsPlain ∨ ∃ text, value = .string text

/-- A token without a literal is one that a scanner makes if an operator has its lexeme. -/
theorem Token.isScanned_of_none {kind : TokenKind} {lexeme : String} {line : Nat}
    (h : kind ∈ operatorLexemes.map Prod.fst → (kind, lexeme) ∈ operatorLexemes) :
    IsScanned ⟨kind, lexeme, none, line⟩ :=
  ⟨fun hkind => ⟨h hkind, rfl⟩, fun _ hvalue => by cases hvalue⟩

/-- So is a token with a literal, if it is no operator. -/
theorem Token.isScanned_of_some {kind : TokenKind} {lexeme : String} {value : Literal} {line : Nat}
    (hkind : kind ∉ operatorLexemes.map Prod.fst)
    (hvalue : value.IsPlain ∨ ∃ text, value = .string text) :
    IsScanned ⟨kind, lexeme, some value, line⟩ := by
  refine ⟨fun h => absurd h hkind, fun value' h => ?_⟩
  rwa [← Option.some.inj h]

/-- Every token that a step takes is one that a scanner makes. -/
theorem Lexeme.Taken.isScanned {l : Lexeme} {rest : List Unicode.Cluster} (h : Taken l rest)
    {kind : TokenKind} {literal : Option Literal} (hl : l.label = .token kind literal)
    (line : Nat) : Token.IsScanned ⟨kind, l.text, literal, line⟩ := by
  have hsymbols : ∀ p ∈ symbols, p.2 ∈ operatorLexemes.map Prod.fst →
      (p.2, String.ofList p.1.flatten) ∈ operatorLexemes := by decide
  have hwords : ∀ kind ∈ TokenKind.identifier :: TokenKind.reserved.map Prod.snd,
      kind ∉ operatorLexemes.map Prod.fst := by decide
  have hform := h.tokenForm hl
  unfold text
  generalize l.body = body at hform
  -- An operator is spelled in one way; words, numbers and strings are no operators.
  cases hform with
  | symbol hmem => exact Token.isScanned_of_none (hsymbols _ hmem)
  | word hmem _ => exact Token.isScanned_of_none fun hkind => absurd hkind (hwords _ hmem)
  | number _ hread =>
    exact Token.isScanned_of_some (by decide) (.inl (Number.exists_ofPattern_of_ofText? hread))
  | string _ => exact Token.isScanned_of_some (by decide) (.inr ⟨_, rfl⟩)

/-- The tokens of a scan have been scanned. -/
theorem Scan.isScanned_of_mem_tokens {source : String} {t : Token}
    (ht : t ∈ (ofSource source).tokens) : t.IsScanned := by
  obtain ⟨l, rest, htaken, hlabel, htext⟩ := exists_taken_of_mem_tokens ht
  have hscanned := htaken.isScanned hlabel t.line
  rwa [htext] at hscanned

/-! ## Trees of scanned tokens -/

namespace Grammar

/-- A tree of scanned tokens without strings is spelled. -/
theorem Derives.spelled {s : Symbol} {word : List Token} {e : Expr} (h : Derives s word e)
    (hword : ∀ t ∈ word, t.IsScanned) (hstring : ∀ text, ¬Expr.Within (.literal (.string text)) e) :
    e.Spelled := by
  have hbinary : ∀ kind ∈ binaryOperators, kind ∈ operatorLexemes.map Prod.fst := by decide
  -- Every operator and literal of the tree is a token of the word, which has been scanned.
  induction h with
  | operand _ ih | primary _ ih => exact ih hword hstring
  | binary _ hop _ ihl ihr =>
    rw [List.forall_mem_append, List.forall_mem_cons] at hword
    obtain ⟨hleft, hoperator, hright⟩ := hword
    refine .binary (hoperator.operator (hbinary _ (mem_binaryOperators hop))) ?_ ?_
    · exact ihl hleft fun text hwithin => hstring text (.left hwithin)
    · exact ihr hright fun text hwithin => hstring text (.right hwithin)
  | unary hop _ ih =>
    rw [List.forall_mem_cons] at hword
    have hoperand := ih hword.2 fun text hwithin => hstring text (.unary hwithin)
    refine .unary (hword.1.operator ?_) hoperand
    rcases hop with hop | hop <;> rw [hop] <;> decide
  | trueWord _ | falseWord _ | nilWord _ => exact .literal trivial
  | carried _ hvalue =>
    rcases (hword _ List.mem_cons_self).literal _ hvalue with hplain | ⟨text, rfl⟩
    · exact .literal hplain
    · exact absurd .self (hstring text)
  | grouping _ _ _ ih =>
    rw [List.cons_append, List.forall_mem_cons, List.forall_mem_append] at hword
    exact .grouping (ih hword.2.1 fun text hwithin => hstring text (.grouping hwithin))

end Grammar

/-- The tree of a program without strings is spelled. -/
theorem Program.spelled_of_tree? {source : String} {e : Expr} (h : tree? source = some e)
    (hstring : ∀ text, ¬Expr.Within (.literal (.string text)) e) : e.Spelled := by
  obtain ⟨word, hpending, hd, -, -⟩ :=
    (Parser.parse_eq_ok_iff (Parser.kind_eof_ofTokens _)).mp ⟨parse_of_tree? h, rfl⟩
  rw [pending_allTokens] at hpending
  refine hd.spelled (fun t ht => ?_) hstring
  apply Scan.isScanned_of_mem_tokens
  rw [hpending]
  exact List.mem_append_left _ ht

/-! ## Evaluation on other lines -/

namespace Expr

variable (g : Nat → Nat)

/-- A node fails on any lines, and the fault is on the line of its token. -/
theorem Fails.relocate {node : Expr} {f : RuntimeFault} (h : Fails node f) :
    Fails (node.relocate g) (f.relocate g) := by
  cases h with
  | operation hraises =>
    cases hraises with
    | @unary operator operand v f hoperand happly =>
      refine .operation (.unary (v := v) ?_ ?_)
      · rw [eval_relocate, hoperand]
        rfl
      · rw [applyUnary_relocate, happly]
        rfl
    | @binary left right operator l r f hleft hright happly =>
      refine .operation (.binary (l := l) (r := r) ?_ ?_ ?_)
      · rw [eval_relocate, hleft]
        rfl
      · rw [eval_relocate, hright]
        rfl
      · rw [applyBinary_relocate, happly]
        rfl
  | unsupported htoken => cases node <;> cases htoken <;> exact .unsupported rfl

/-- On other lines evaluation goes the same way to its fault. -/
theorem RaisedAt.relocate {e : Expr} {p : Address} {f : RuntimeFault} (h : RaisedAt e p f) :
    RaisedAt (e.relocate g) p (f.relocate g) := by
  induction h with
  | here hfails => exact .here (hfails.relocate g)
  | grouping _ ih => exact .grouping ih
  | unary _ ih => exact .unary ih
  | left _ ih => exact .left ih
  | @right left right operator v p f hleft _ ih =>
    refine .right (v := v) ?_ ih
    rw [eval_relocate, hleft]
    rfl

/-- Trees that are the same but for their lines have the same value, or their first faults at the
same place and with the same cause, at operators that are the same but for their lines. -/
theorem SameButLines.eval {e e' : Expr} (h : e.SameButLines e') :
    (∃ v, e.eval = .ok v ∧ e'.eval = .ok v) ∨
      ∃ p f f', e.eval = .error f ∧ e'.eval = .error f' ∧ e.FirstFault p f ∧ e'.FirstFault p f' ∧
        f.relocate (fun _ => 0) = f'.relocate fun _ => 0 := by
  have heval := congrArg Expr.eval h
  rw [eval_relocate, eval_relocate] at heval
  cases hv : e.eval with
  | ok v =>
    cases hv' : e'.eval with
    | ok v' =>
      rw [hv, hv'] at heval
      exact .inl ⟨v, rfl, congrArg Except.ok (Except.ok.inj heval).symm⟩
    | error f' =>
      rw [hv, hv'] at heval
      cases heval
  | error f =>
    cases hv' : e'.eval with
    | ok v' =>
      rw [hv, hv'] at heval
      cases heval
    | error f' =>
      rw [hv, hv'] at heval
      -- Without lines the two trees are one, in which there is only one first fault.
      obtain ⟨p, hp⟩ := exists_raisedAt hv
      obtain ⟨p', hp'⟩ := exists_raisedAt hv'
      have hplace := hp.relocate fun _ => 0
      rw [h] at hplace
      obtain ⟨rfl, hfault⟩ := hplace.firstFault.unique (hp'.relocate fun _ => 0).firstFault
      exact .inr ⟨p, f, f', rfl, rfl, hp.firstFault, hp'.firstFault, hfault⟩

end Expr

/-! ## Programs -/

/-- Two programs without strings whose trees are shown as the same text have the same tree but for
the lines of its tokens. Running them returns the same text, or reports a fault with the same cause
at the same place in the trees. -/
theorem same_of_shown_alike {source source' : String} {e e' : Expr} (sink : Sink)
    (htree : ((Journal.new sink).parse source).1 = some e)
    (htree' : ((Journal.new sink).parse source').1 = some e')
    (hstring : ∀ text, ¬Expr.Within (.literal (.string text)) e)
    (hstring' : ∀ text, ¬Expr.Within (.literal (.string text)) e')
    (hshown : ((Journal.new sink).showTree source).1 = ((Journal.new sink).showTree source').1) :
    e.relocate (fun _ => 0) = e'.relocate (fun _ => 0) ∧
      ((∃ text, (Journal.new sink).run source = (some text, .new sink) ∧
          (Journal.new sink).run source' = (some text, .new sink)) ∨
        ∃ p f f', (Journal.new sink).run source = (none, (Journal.new sink).add (.runtime f)) ∧
          (Journal.new sink).run source' = (none, (Journal.new sink).add (.runtime f')) ∧
          e.FirstFault p f ∧ e'.FirstFault p f' ∧ f.cause = f'.cause ∧
          f.token.relocate (fun _ => 0) = f'.token.relocate fun _ => 0) := by
  rw [Program.parse_new] at htree htree'
  have hrender : e.render = e'.render := by
    rw [Program.showTree_of_tree? htree, Program.showTree_of_tree? htree'] at hshown
    exact Option.some.inj hshown
  have hsame : e.SameButLines e' :=
    (Program.spelled_of_tree? htree hstring).sameButLines_of_render
      (Program.spelled_of_tree? htree' hstring') hrender
  obtain ⟨hvalue, hfault⟩ := Program.run_of_tree? htree sink
  obtain ⟨hvalue', hfault'⟩ := Program.run_of_tree? htree' sink
  refine ⟨hsame, ?_⟩
  -- Trees that differ in lines only have one value, or fail at one node with one cause.
  rcases hsame.eval with ⟨v, hv, hv'⟩ | ⟨p, f, f', hf, hf', hfirst, hfirst', hline⟩
  · exact .inl ⟨v.text, hvalue v hv, hvalue' v hv'⟩
  · obtain ⟨hcause, htoken⟩ := RuntimeFault.mk.inj hline
    exact .inr ⟨p, f, f', hfault f hf, hfault' f' hf', hfirst, hfirst', hcause, htoken⟩

/-- With a comment and two line ends between its tokens, `true - -nil` is shown as the same text. It
fails at the prefix operator, and there also on three lines. -/
theorem same_of_shown_alike_minus :
    ((Journal.new .none).showTree "true - -nil").1 =
        ((Journal.new .none).showTree "true // -\n-\n-nil").1 ∧
      ∃ p f f', (Journal.new .none).run "true - -nil" =
          (none, (Journal.new .none).add (.runtime f)) ∧
        (Journal.new .none).run "true // -\n-\n-nil" =
          (none, (Journal.new .none).add (.runtime f')) ∧
        (Expr.binary (.literal .true) ⟨.minus, "-", none, 1⟩
          (.unary ⟨.minus, "-", none, 1⟩ (.literal .nil))).FirstFault p f ∧
        (Expr.binary (.literal .true) ⟨.minus, "-", none, 2⟩
          (.unary ⟨.minus, "-", none, 3⟩ (.literal .nil))).FirstFault p f' ∧
        f.cause = f'.cause ∧ f.token.relocate (fun _ => 0) = f'.token.relocate fun _ => 0 := by
  have htree : Program.tree? "true - -nil" =
      some (.binary (.literal .true) ⟨.minus, "-", none, 1⟩
        (.unary ⟨.minus, "-", none, 1⟩ (.literal .nil))) := by cbv
  have htree' : Program.tree? "true // -\n-\n-nil" =
      some (.binary (.literal .true) ⟨.minus, "-", none, 2⟩
        (.unary ⟨.minus, "-", none, 3⟩ (.literal .nil))) := by cbv
  have hshown : ((Journal.new .none).showTree "true - -nil").1 =
      ((Journal.new .none).showTree "true // -\n-\n-nil").1 := by
    rw [Program.showTree_of_tree? htree, Program.showTree_of_tree? htree']
    rfl
  have hrun := (Program.run_of_tree? htree .none).2 _ rfl
  have hstring (operator operator' : Token) (text : String) :
      ¬Expr.Within (.literal (.string text)) (.binary (.literal .true) operator
        (.unary operator' (.literal .nil))) := by
    intro h
    cases h with
    | left hleft => cases hleft
    | right hright =>
      cases hright with
      | unary hoperand => cases hoperand
  refine ⟨hshown, ?_⟩
  obtain ⟨-, ⟨text, htext, -⟩ | hfault⟩ :=
    same_of_shown_alike .none ((Program.parse_new _ _).trans htree)
      ((Program.parse_new _ _).trans htree') (hstring _ _) (hstring _ _) hshown
  · rw [htext] at hrun
    cases hrun
  · exact hfault

end LoxCalc
