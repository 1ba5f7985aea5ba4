import LoxCalc.Expr.Render
import LoxCalc.Proofs.Expr.Faults
import LoxCalc.Proofs.Parser.EarliestFault

/-!
# Lines do not matter

Tokens carry their lines into trees and faults, and nothing else is done with a line: neither the
parser nor the evaluator looks at it. A change `g` of the lines of all tokens therefore changes the
lines in what they return, and nothing more (`Parser.parse_relocate`, `Expr.eval_relocate`).

For the parser this is read off the grammar: a derivation and a place where it is stuck go over to
the tokens on other lines rule by rule (`Derives.relocate`, `Stuck.relocate`), and they decide what
the parser returns.
-/

namespace LoxCalc

/-- The token on another line. -/
def Token.relocate (g : Nat → Nat) (t : Token) : Token :=
  { t with line := g t.line }

/-- Lines do not change a kind. -/
@[simp]
theorem Token.kind_relocate (g : Nat → Nat) (t : Token) : (t.relocate g).kind = t.kind := rfl

/-- The fault at the token on another line. -/
def GrammarFault.relocate (g : Nat → Nat) (f : GrammarFault) : GrammarFault :=
  { f with token := f.token.relocate g }

/-- The fault at the token on another line. -/
def RuntimeFault.relocate (g : Nat → Nat) (f : RuntimeFault) : RuntimeFault :=
  { f with token := f.token.relocate g }

/-! ## Trees -/

namespace Expr

mutual

/-- The tree with its tokens on other lines. -/
def relocate (g : Nat → Nat) : Expr → Expr
  | .assign name value => .assign (name.relocate g) (value.relocate g)
  | .binary left operator right =>
    .binary (left.relocate g) (operator.relocate g) (right.relocate g)
  | .call callee paren arguments =>
    .call (callee.relocate g) (paren.relocate g) (relocateAll g arguments)
  | .get object name => .get (object.relocate g) (name.relocate g)
  | .grouping inner => .grouping (inner.relocate g)
  | .literal value => .literal value
  | .logical left operator right =>
    .logical (left.relocate g) (operator.relocate g) (right.relocate g)
  | .set object name value => .set (object.relocate g) (name.relocate g) (value.relocate g)
  | .super keyword method => .super (keyword.relocate g) (method.relocate g)
  | .this keyword => .this (keyword.relocate g)
  | .unary operator operand => .unary (operator.relocate g) (operand.relocate g)
  | .variable name => .variable (name.relocate g)

/-- The trees with their tokens on other lines. -/
def relocateAll (g : Nat → Nat) : List Expr → List Expr
  | [] => []
  | e :: rest => e.relocate g :: relocateAll g rest

end

section Eval

variable (g : Nat → Nat) (operator : Token)

/-- An operator in front of a value fails on its own line and else does not look at it. -/
theorem applyUnary_relocate (v : Value) : applyUnary (operator.relocate g) v =
    (applyUnary operator v).mapError (RuntimeFault.relocate g) := by
  unfold applyUnary
  rw [Token.kind_relocate]
  split <;> rfl

/-- An operator between two values fails on its own line and else does not look at it. -/
theorem applyBinary_relocate (l r : Value) : applyBinary (operator.relocate g) l r =
    (applyBinary operator l r).mapError (RuntimeFault.relocate g) := by
  have hnumeric (operation : Float → Float → Value) :
      applyNumeric (operator.relocate g) operation l r =
        (applyNumeric operator operation l r).mapError (RuntimeFault.relocate g) := by
    unfold applyNumeric
    split <;> rfl
  have hplus : applyPlus (operator.relocate g) l r =
      (applyPlus operator l r).mapError (RuntimeFault.relocate g) := by
    unfold applyPlus
    split <;> rfl
  -- Equality takes any values, and what is no operator fails by its own line.
  unfold applyBinary
  rw [Token.kind_relocate]
  split
  case h_1 | h_2 | h_11 => rfl
  case h_3 => exact hplus
  all_goals exact hnumeric _

/-- A tree on other lines has the same value, or its fault on another line. -/
theorem eval_relocate (e : Expr) :
    (e.relocate g).eval = e.eval.mapError (RuntimeFault.relocate g) := by
  -- Evaluation goes the same way, and where it fails the fault is on the other line.
  fun_induction eval e with
  | case1 value => rfl
  | case2 inner ih => exact ih
  | case3 operator operand ih =>
    simp only [relocate, eval, ih]
    cases operand.eval with
    | error f => rfl
    | ok v => exact applyUnary_relocate g operator v
  | case4 left operator right ihl ihr =>
    simp only [relocate, eval, ihl, ihr]
    cases left.eval with
    | error f => rfl
    | ok l =>
      cases right.eval with
      | error f => rfl
      | ok r => exact applyBinary_relocate g operator l r
  | _ => rfl

end Eval

/-- A tree of the grammar on other lines is shown as the same text. -/
theorem Supported.render_relocate {e : Expr} (h : e.Supported) (g : Nat → Nat) :
    (e.relocate g).render = e.render := by
  induction h with
  | literal value => rfl
  | grouping _ ih => simp [relocate, render, ih]
  | unary _ _ ih => simp [relocate, render, ih, Token.relocate]
  | binary _ _ _ ihl ihr => simp [relocate, render, ihl, ihr, Token.relocate]

/-- A tree of the grammar on other lines nests as deep. -/
theorem Supported.nesting_relocate {e : Expr} (h : e.Supported) (g : Nat → Nat) :
    (e.relocate g).nesting = e.nesting := by
  induction h with
  | literal value => rfl
  | grouping _ ih => simp [relocate, ih]
  | unary _ _ ih => simp [relocate, ih]
  | binary _ _ _ ihl ihr => simp [relocate, ihl, ihr]

end Expr

/-! ## The grammar -/

namespace Grammar

variable (g : Nat → Nat)

/-- The grammar does not look at lines. -/
theorem Derives.relocate {s : Symbol} {word : List Token} {e : Expr} (h : Derives s word e) :
    Derives s (word.map (Token.relocate g)) (e.relocate g) := by
  induction h with
  | operand _ ih => exact .operand ih
  | primary _ ih => exact .primary ih
  | binary _ hop _ ihl ihr =>
    rw [List.map_append, List.map_cons]
    exact .binary ihl hop ihr
  | unary hop _ ih => exact .unary hop ih
  | trueWord hk => exact .trueWord hk
  | falseWord hk => exact .falseWord hk
  | nilWord hk => exact .nilWord hk
  | carried hk hv => exact .carried hk hv
  | grouping ho _ hc ih =>
    rw [List.map_append, List.map_cons]
    exact .grouping ho ih hc

/-- Lines do not change how deeply a tree nests. -/
theorem Derives.nesting_relocate {s : Symbol} {word : List Token} {e : Expr} {room : Nat}
    (h : Derives s word e) (hn : e.nesting ≤ room) : (e.relocate g).nesting ≤ room := by
  rwa [h.supported.nesting_relocate g]

/-- What is stuck is so on any lines. -/
theorem Stuck.relocate {s : Symbol} {room : Nat} {word : List Token} {f : GrammarFault}
    (h : Stuck s room word f) :
    Stuck s room (word.map (Token.relocate g)) (f.relocate g) := by
  induction h with
  | operand _ ih => exact .operand ih
  | binary hl hn hop _ ih =>
    rw [List.map_append, List.map_cons]
    exact .binary (hl.relocate g) (hl.nesting_relocate g hn) hop ih
  | unary hop _ ih => exact .unary hop ih
  | grouping ho _ ih => exact .grouping ho ih
  | unclosed ho hd hn hop hclose =>
    exact .unclosed ho (hd.relocate g) (hd.nesting_relocate g hn) hop hclose
  | nested hk => exact .nested hk
  | unexpected hop hparen hliteral => exact .unexpected hop hparen hliteral

/-- What stops does so on any lines. -/
theorem Stops.relocate {s : Symbol} {rest : List Token} (h : Stops s rest) :
    Stops s (rest.map (Token.relocate g)) := by
  cases rest with
  | nil => exact stops_nil s
  | cons t rest =>
    have ht : t.kind ∉ continuing s := (stops_cons s t rest).mp h
    exact (stops_cons s (t.relocate g) _).mpr ht

end Grammar

/-! ## The parser -/

namespace Parser

variable (g : Nat → Nat)

/-- The parser of tokens on other lines. -/
def relocate (p : Parser) : Parser :=
  ⟨p.pending.map (Token.relocate g), p.eof.relocate g⟩

/-- A token list with an end, on other lines, makes a parser of tokens on other lines. -/
theorem ofTokens_relocate {ts : List Token} {t : Token} (ht : t ∈ ts) (heof : t.kind = .eof) :
    ofTokens (ts.map (Token.relocate g)) = (ofTokens ts).relocate g := by
  have hend : (fun t : Token => t.kind == .eof) ∘ Token.relocate g = (·.kind == .eof) := rfl
  have hpending : (fun t : Token => t.kind != .eof) ∘ Token.relocate g = (·.kind != .eof) := rfl
  have hfind : (ts.find? (·.kind == .eof)).isSome = true := by
    rw [List.find?_isSome]
    exact ⟨t, ht, by simp [heof]⟩
  obtain ⟨eof, hfind⟩ := Option.isSome_iff_exists.mp hfind
  simp only [ofTokens, relocate, List.takeWhile_map, List.find?_map, hend, hpending, hfind,
    Option.map_some, Option.getD_some]

/-- Parsing tokens on other lines gives the tree, or the fault, on other lines. -/
theorem parse_relocate {p : Parser} (heof : p.eof.kind = .eof) :
    (p.relocate g).parse.1 =
      (p.parse.1.map (Expr.relocate g)).mapError (GrammarFault.relocate g) := by
  have heof' : (p.relocate g).eof.kind = .eof := heof
  -- Both answers are described by the grammar, which does not look at lines.
  cases hparse : p.parse.1 with
  | ok e =>
    obtain ⟨word, hpending, hd, hn, hs⟩ := (parse_eq_ok_iff heof).mp ⟨hparse, rfl⟩
    have hrelocated : (p.relocate g).pending =
        word.map (Token.relocate g) ++ p.parse.2.pending.map (Token.relocate g) := by
      rw [← List.map_append, ← hpending]
      rfl
    have hok := (parse_eq_ok_iff heof').mpr
      ⟨_, hrelocated, hd.relocate g, hd.nesting_relocate g hn, hs.relocate g⟩
    exact hok.1
  | error f =>
    obtain ⟨word, hstuck, hbegins⟩ := stuck_of_parse_eq_error heof hparse
    have hrelocated : word.map (Token.relocate g) ++ [(f.relocate g).token] <+:
        (p.relocate g).pending ++ [(p.relocate g).eof] := by
      have hmapped := hbegins.map (Token.relocate g)
      rwa [List.map_append, List.map_append] at hmapped
    exact (parse_eq_error_of_stuck heof' (hstuck.relocate g) hrelocated).1

/-- What a call of `parse` returns is a tree of the grammar. -/
theorem supported_of_parse {p : Parser} (heof : p.eof.kind = .eof) {e : Expr}
    (h : p.parse.1 = .ok e) : e.Supported := by
  obtain ⟨word, -, hd, -, -⟩ := (parse_eq_ok_iff heof).mp ⟨h, rfl⟩
  exact hd.supported

end Parser

end LoxCalc
