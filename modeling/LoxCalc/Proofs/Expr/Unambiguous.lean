import LoxCalc.Proofs.Expr.Address
import LoxCalc.Proofs.Number.ReadBack
import LoxCalc.Proofs.Parser.Relocation
import Mathlib

/-!
# Shown trees are unambiguous

A tree is shown in words, blanks and parentheses. A word ends where a blank or a parenthesis
follows, so that two texts that begin alike begin with the same word (`append_word_inj`). A literal
is one word, and every other tree is an opening parenthesis, its heading, its children with a blank
in front of each, and a closing parenthesis. So a tree can be told from the beginning of a text that
goes on behind it (`Expr.Spelled.tellable`), by induction on the tree.

The heading and the number of children tell the form of a node and its operator: the minus in front
of one child is a prefix, that in front of two is not, and no operator is spelled like the heading
of a grouping. Strings are left out, as they can hold anything, and the texts of other literals
differ (`Literal.text_inj`).
-/

namespace LoxCalc

open Number (ofPattern infinityBits)

/-- The operators and their lexemes. -/
def operatorLexemes : List (TokenKind × String) :=
  [(.bang, "!"), (.bangEqual, "!="), (.equalEqual, "=="), (.greater, ">"), (.greaterEqual, ">="),
   (.less, "<"), (.lessEqual, "<="), (.minus, "-"), (.plus, "+"), (.slash, "/"), (.star, "*")]

/-- A token of an operator with its lexeme and without a literal. -/
def Token.IsOperator (t : Token) : Prop :=
  (t.kind, t.lexeme) ∈ operatorLexemes ∧ t.literal = none

/-- A literal other than a string, of a number without a sign if it is a number. -/
def Literal.IsPlain : Literal → Prop
  | .string _ => False
  | .number x => ∃ bits ≤ infinityBits, x = ofPattern bits
  | .true | .false | .nil => True

/-! ## Words -/

/-- Whether a character belongs to a word: it is no blank and no parenthesis. -/
def isWordChar (c : Char) : Bool :=
  c != ' ' && c != '(' && c != ')'

/-- A word has a character, and none that is no part of words. -/
def IsWord (w : List Char) : Prop :=
  w ≠ [] ∧ w.all isWordChar = true

/-- Whether a text is one word can be computed. -/
instance (w : List Char) : Decidable (IsWord w) :=
  inferInstanceAs (Decidable (_ ∧ _))

/-- A text that does not go on with the word in front of it. -/
def EndsWord (rest : List Char) : Prop :=
  ∀ c ∈ rest.head?, isWordChar c = false

/-- A word ends where the text does. -/
theorem endsWord_nil : EndsWord [] := by
  simp [EndsWord]

/-- A word ends at a character that is not of words. -/
theorem endsWord_cons {c : Char} (hc : isWordChar c = false) (rest : List Char) :
    EndsWord (c :: rest) := by
  simpa [EndsWord] using hc

/-- A word ends where the text behind it begins. -/
theorem takeWhile_word {w rest : List Char} (hw : IsWord w) (hrest : EndsWord rest) :
    (w ++ rest).takeWhile isWordChar = w := by
  rw [List.takeWhile_append_of_pos (List.all_eq_true.mp hw.2)]
  cases rest with
  | nil => simp
  | cons c rest =>
    have hc : ¬isWordChar c = true := by simp [hrest c rfl]
    rw [List.takeWhile_cons_of_neg hc, List.append_nil]

/-- Texts that begin with a word are equal only if they begin with the same one. -/
theorem append_word_inj {w w' rest rest' : List Char} (hw : IsWord w) (hw' : IsWord w')
    (hrest : EndsWord rest) (hrest' : EndsWord rest') (h : w ++ rest = w' ++ rest') :
    w = w' ∧ rest = rest' := by
  have hsame : w = w' := by
    rw [← takeWhile_word hw hrest, h, takeWhile_word hw' hrest']
  subst hsame
  exact ⟨rfl, List.append_cancel_left h⟩

/-- The text of a number without a sign is a word, and not one of those of the other plain
literals. -/
theorem Number.isWord_text {bits : Nat} (h : bits ≤ infinityBits) :
    IsWord (text (ofPattern bits)).toList ∧
      ∀ w ∈ ["true", "false", "nil"], text (ofPattern bits) ≠ w := by
  -- A text with digits and points is no word of the language, and the one without is `inf`.
  rcases text_ofPattern_cases h with hread | ⟨-, htext⟩
  · obtain ⟨hne, hdigits⟩ := isDigit_of_ofText? hread
    constructor
    · refine ⟨hne, List.all_eq_true.mpr fun c hc => ?_⟩
      simp only [isWordChar, Bool.and_eq_true, bne_iff_ne]
      refine ⟨⟨?_, ?_⟩, ?_⟩ <;>
      · rintro rfl
        exact absurd (hdigits _ hc) (by decide)
    · rintro w hw rfl
      have hnone : ∀ w ∈ ["true", "false", "nil"], ofText? w.toList = none := by decide
      rw [hnone _ hw] at hread
      cases hread
  · rw [htext]
    decide

/-- The text of a literal that is no string is one word. -/
theorem Literal.isWord_text {value : Literal} (h : value.IsPlain) : IsWord value.text.toList := by
  cases value with
  | string s => cases h
  | number x =>
    obtain ⟨bits, hbits, rfl⟩ := h
    exact (Number.isWord_text hbits).1
  | true | false | nil => decide

/-- Plain literals are told apart by their texts. -/
theorem Literal.text_inj {value value' : Literal} (h : value.IsPlain) (h' : value'.IsPlain)
    (htext : value.text = value'.text) : value = value' := by
  -- Numbers are told apart by their texts, numbers from words by a digit, and the three words by
  -- their spelling.
  cases value with
  | string s => cases h
  | number x =>
    obtain ⟨bits, hbits, rfl⟩ := h
    cases value' with
    | string s => cases h'
    | number x' =>
      obtain ⟨bits', hbits', rfl⟩ := h'
      exact congrArg Literal.number (Number.text_ofPattern_inj hbits hbits' htext)
    | true | false | nil => exact absurd htext ((Number.isWord_text hbits).2 _ (by decide))
  | true | false | nil =>
    cases value' with
    | string s => cases h'
    | number x' =>
      obtain ⟨bits', hbits', rfl⟩ := h'
      exact absurd htext.symm ((Number.isWord_text hbits').2 _ (by decide))
    | true | false | nil => first | rfl | exact absurd htext (by decide)

/-! ## Trees -/

/-- The lexeme of an operator tells the operator. -/
theorem Token.IsOperator.relocate_eq {t t' : Token} (h : t.IsOperator) (h' : t'.IsOperator)
    (hlexeme : t.lexeme = t'.lexeme) : t.relocate (fun _ => 0) = t'.relocate fun _ => 0 := by
  have htable : ∀ p ∈ operatorLexemes, ∀ p' ∈ operatorLexemes, p.2 = p'.2 → p = p' := by decide
  obtain ⟨kind, lexeme, literal, line⟩ := t
  obtain ⟨kind', lexeme', literal', line'⟩ := t'
  obtain ⟨hmem, rfl⟩ := h
  obtain ⟨hmem', rfl⟩ := h'
  cases htable _ hmem _ hmem' hlexeme
  rfl

namespace Expr

/-- The trees are equal but for the lines of their tokens. -/
def SameButLines (e e' : Expr) : Prop :=
  e.relocate (fun _ => 0) = e'.relocate fun _ => 0

/-- In parentheses, trees that are the same but for lines stay so. -/
theorem SameButLines.grouping {inner inner' : Expr} (h : inner.SameButLines inner') :
    (Expr.grouping inner).SameButLines (.grouping inner') :=
  congrArg Expr.grouping h

/-- Behind operators that are the same but for lines, trees stay so. -/
theorem SameButLines.unary {operator operator' : Token} {operand operand' : Expr}
    (hoperator : operator.relocate (fun _ => 0) = operator'.relocate fun _ => 0)
    (h : operand.SameButLines operand') :
    (Expr.unary operator operand).SameButLines (.unary operator' operand') :=
  congrArg₂ Expr.unary hoperator h

/-- Around operators that are the same but for lines, trees stay so. -/
theorem SameButLines.binary {left left' right right' : Expr} {operator operator' : Token}
    (hoperator : operator.relocate (fun _ => 0) = operator'.relocate fun _ => 0)
    (hleft : left.SameButLines left') (hright : right.SameButLines right') :
    (Expr.binary left operator right).SameButLines (.binary left' operator' right') := by
  unfold SameButLines at *
  rw [relocate, relocate, hleft, hoperator, hright]

/-- A tree of plain literals, groupings and operations whose operators have their lexemes. -/
inductive Spelled : Expr → Prop
  | literal {value : Literal} : value.IsPlain → Spelled (.literal value)
  | grouping {inner : Expr} : Spelled inner → Spelled (.grouping inner)
  | unary {operator : Token} {operand : Expr} :
    operator.IsOperator → Spelled operand → Spelled (.unary operator operand)
  | binary {left right : Expr} {operator : Token} :
    operator.IsOperator → Spelled left → Spelled right → Spelled (.binary left operator right)

/-- The word behind the opening parenthesis of a grouping or an operation. -/
def heading? : Expr → Option String
  | .grouping _ => some "group"
  | .unary operator _ | .binary _ operator _ => some operator.lexeme
  | _ => none

/-- A tree with a heading is shown as its heading and its children, in parentheses. -/
theorem toList_render {e : Expr} {w : String} (h : e.heading? = some w) (rest : List Char) :
    e.render.toList ++ rest =
      '(' :: (w.toList ++ ((renderArguments e.children).toList ++ ')' :: rest)) := by
  cases e <;> cases h <;> simp [render, renderArguments, children]

/-- Behind a heading comes a blank, or the closing parenthesis. -/
theorem endsWord_arguments (es : List Expr) (rest : List Char) :
    EndsWord ((renderArguments es).toList ++ ')' :: rest) := by
  cases es with
  | nil => exact endsWord_cons rfl rest
  | cons e es =>
    simp only [renderArguments, String.toList_append]
    exact endsWord_cons rfl _

namespace Spelled

/-- A heading is one word. -/
theorem isWord_heading {e : Expr} (h : Spelled e) {w : String} (hw : e.heading? = some w) :
    IsWord w.toList := by
  have hoperators : ∀ p ∈ operatorLexemes, IsWord p.2.toList := by decide
  cases h with
  | literal _ => cases hw
  | grouping _ =>
    cases hw
    decide
  | unary hop _ | binary hop _ _ =>
    cases hw
    exact hoperators _ hop.1

/-- The children of a spelled tree are spelled. -/
theorem of_mem_children {e : Expr} (h : Spelled e) : ∀ child ∈ e.children, Spelled child := by
  cases h with
  | literal _ => simp [children]
  | grouping hinner => simpa [children] using hinner
  | unary _ hoperand => simpa [children] using hoperand
  | binary _ hleft hright => simpa [children] using ⟨hleft, hright⟩

/-- Trees with the same heading are the same if their children are. -/
theorem sameButLines_of_children {e e' : Expr} (h : Spelled e) (h' : Spelled e') {w : String}
    (hw : e.heading? = some w) (hw' : e'.heading? = some w)
    (hchildren : List.Forall₂ SameButLines e.children e'.children) : e.SameButLines e' := by
  have hgroup : ∀ p ∈ operatorLexemes, p.2 ≠ "group" := by decide
  -- With one heading, both are groupings, or both have one child, or both have two: a sign may
  -- stand in front of an operand or between two.
  cases h with
  | literal _ => cases hw
  | grouping _ =>
    cases hw
    cases h' with
    | literal _ => cases hw'
    | grouping _ =>
      obtain ⟨hinner, -⟩ := List.forall₂_cons.mp hchildren
      exact .grouping hinner
    | unary hop _ | binary hop _ _ => exact absurd (Option.some.inj hw') (hgroup _ hop.1)
  | unary hop _ =>
    cases hw
    cases h' with
    | literal _ => cases hw'
    | grouping _ => exact absurd (Option.some.inj hw').symm (hgroup _ hop.1)
    | unary hop' _ =>
      obtain ⟨hoperand, -⟩ := List.forall₂_cons.mp hchildren
      exact .unary (hop.relocate_eq hop' (Option.some.inj hw').symm) hoperand
    | binary _ _ _ => cases hchildren.length_eq
  | binary hop _ _ =>
    cases hw
    cases h' with
    | literal _ => cases hw'
    | grouping _ => exact absurd (Option.some.inj hw').symm (hgroup _ hop.1)
    | unary _ _ => cases hchildren.length_eq
    | binary hop' _ _ =>
      obtain ⟨hleft, hrest⟩ := List.forall₂_cons.mp hchildren
      obtain ⟨hright, -⟩ := List.forall₂_cons.mp hrest
      exact .binary (hop.relocate_eq hop' (Option.some.inj hw').symm) hleft hright

end Spelled

/-- A tree that can be told from the beginning of a text: no text of another tree, with anything
behind it that ends a word, begins alike. -/
def Tellable (e : Expr) : Prop :=
  ∀ e' : Expr, Spelled e' → ∀ rest rest' : List Char, EndsWord rest → EndsWord rest' →
    e.render.toList ++ rest = e'.render.toList ++ rest' → e.SameButLines e' ∧ rest = rest'

/-- Children that can be told, up to a closing parenthesis, can be told one after another. -/
theorem forall₂_of_renderArguments {es es' : List Expr} (h : ∀ e ∈ es, Tellable e)
    (h' : ∀ e' ∈ es', Spelled e') {rest rest' : List Char}
    (heq : (renderArguments es).toList ++ ')' :: rest =
      (renderArguments es').toList ++ ')' :: rest') :
    List.Forall₂ SameButLines es es' ∧ rest = rest' := by
  induction es generalizing es' with
  | nil =>
    cases es' with
    | nil => exact ⟨.nil, (List.cons.inj heq).2⟩
    | cons e' es' =>
      simp [renderArguments] at heq
  | cons e es ih =>
    cases es' with
    | nil => simp [renderArguments] at heq
    | cons e' es' =>
      rw [List.forall_mem_cons] at h h'
      simp only [renderArguments, String.toList_append, List.append_assoc] at heq
      -- Behind the first child come more children or the parenthesis, and each of them ends a word.
      obtain ⟨hsame, hbehind⟩ := h.1 e' h'.1 _ _ (endsWord_arguments es rest)
        (endsWord_arguments es' rest') (List.append_cancel_left heq)
      obtain ⟨hall, hrest⟩ := ih h.2 h'.2 hbehind
      exact ⟨.cons hsame hall, hrest⟩

/-- A tree with a heading begins with a parenthesis, and a word does not. -/
theorem append_ne_render {e : Expr} {heading : String} (h : e.heading? = some heading)
    {w : List Char} (hw : IsWord w) (rest rest' : List Char) :
    w ++ rest ≠ e.render.toList ++ rest' := by
  rw [toList_render h]
  intro heq
  obtain ⟨hne, hchars⟩ := hw
  -- The text of such a tree begins with a parenthesis, which is in no word.
  cases w with
  | nil => exact hne rfl
  | cons c w =>
    obtain ⟨rfl, -⟩ := List.cons.inj heq
    exact absurd (List.all_eq_true.mp hchars '(' List.mem_cons_self) (by decide)

namespace Spelled

/-- A literal can be told, as it is one word. -/
theorem tellable_literal {value : Literal} (h : value.IsPlain) : Tellable (.literal value) := by
  intro e' h' rest rest' hrest hrest' heq
  have hword := Literal.isWord_text h
  cases h' with
  | literal hvalue' =>
    obtain ⟨htext, hrests⟩ :=
      append_word_inj hword (Literal.isWord_text hvalue') hrest hrest' heq
    rw [Literal.text_inj h hvalue' (String.toList_inj.mp htext)]
    exact ⟨rfl, hrests⟩
  | grouping _ | unary _ _ | binary _ _ _ => exact absurd heq (append_ne_render rfl hword _ _)

/-- A tree with a heading can be told if its children can. -/
theorem tellable_of_heading {e : Expr} (h : Spelled e) {w : String} (hw : e.heading? = some w)
    (hchildren : ∀ child ∈ e.children, Tellable child) : Tellable e := by
  intro e' h' rest rest' _ _ heq
  -- A tree without a heading is a literal, whose text does not begin with a parenthesis.
  cases hw' : e'.heading? with
  | none =>
    cases h' with
    | literal hvalue' =>
      exact absurd heq.symm (append_ne_render hw (Literal.isWord_text hvalue') _ _)
    | grouping _ | unary _ _ | binary _ _ _ => cases hw'
  | some w' =>
    rw [toList_render hw, toList_render hw'] at heq
    obtain ⟨hheading, harguments⟩ :=
      append_word_inj (h.isWord_heading hw) (h'.isWord_heading hw') (endsWord_arguments _ _)
        (endsWord_arguments _ _) (List.cons.inj heq).2
    obtain ⟨hsame, hrests⟩ :=
      forall₂_of_renderArguments hchildren h'.of_mem_children harguments
    rw [← String.toList_inj.mp hheading] at hw'
    exact ⟨h.sameButLines_of_children h' hw hw' hsame, hrests⟩

/-- Every spelled tree can be told from the beginning of a text. -/
theorem tellable {e : Expr} (h : Spelled e) : Tellable e := by
  induction h with
  | literal hvalue => exact tellable_literal hvalue
  | grouping hinner ih =>
    exact (grouping hinner).tellable_of_heading rfl (by simpa [children] using ih)
  | unary hop hoperand ih =>
    exact (unary hop hoperand).tellable_of_heading rfl (by simpa [children] using ih)
  | binary hop hleft hright ihl ihr =>
    exact (binary hop hleft hright).tellable_of_heading rfl (by simpa [children] using ⟨ihl, ihr⟩)

/-- Spelled trees that are shown alike are the same but for their lines. -/
theorem sameButLines_of_render {e e' : Expr} (h : Spelled e) (h' : Spelled e')
    (heq : e.render = e'.render) : e.SameButLines e' :=
  (h.tellable e' h' [] [] endsWord_nil endsWord_nil (by rw [heq])).1

end Spelled

end Expr

end LoxCalc
