import LoxCalc.Expr.Eval
import Mathlib.Data.List.Basic

/-!
# Places in a tree

An address leads from the root of a tree to a node: it lists which child to go to, from the root
down. `Expr.subtree?` is the tree at an address, and `Expr.replace` puts another one in its place.
Every form has its children, also those that evaluation does not look at.

Evaluation is compositional: only the values and faults of the children of a node count
(`Expr.eval_withChildren`). So another tree that evaluates alike can stand anywhere
(`Expr.eval_replace`), and parentheses, which evaluate to what is in them, can be put and taken away
anywhere (`Expr.Regrouped.eval_eq`).
-/

namespace LoxCalc

/-- The way from the root of a tree to a node: the indices of children. -/
abbrev Address := List Nat

namespace Expr

/-- The trees right below the root, from left to right. -/
def children : Expr → List Expr
  | .assign _ value => [value]
  | .binary left _ right | .logical left _ right => [left, right]
  | .call callee _ arguments => callee :: arguments
  | .get object _ => [object]
  | .grouping inner => [inner]
  | .set object _ value => [object, value]
  | .unary _ operand => [operand]
  | .literal _ | .super _ _ | .this _ | .variable _ => []

/-- The tree with other trees right below its root, if they are as many as its form takes. -/
def withChildren : Expr → List Expr → Expr
  | .assign name _, [value] => .assign name value
  | .binary _ operator _, [left, right] => .binary left operator right
  | .logical _ operator _, [left, right] => .logical left operator right
  | .call _ paren _, callee :: arguments => .call callee paren arguments
  | .get _ name, [object] => .get object name
  | .grouping _, [inner] => .grouping inner
  | .set _ name _, [object, value] => .set object name value
  | .unary operator _, [operand] => .unary operator operand
  | e, _ => e

/-- A node is its form and its children. -/
@[simp]
theorem withChildren_children (e : Expr) : e.withChildren e.children = e := by
  cases e <;> rfl

/-- The tree at an address, if it does not leave the tree. -/
def subtree? (e : Expr) : Address → Option Expr
  | [] => some e
  | i :: p => e.children[i]?.bind (·.subtree? p)

/-- The tree with `sub` at an address. An address that leaves the tree changes nothing. -/
def replace (e : Expr) : Address → Expr → Expr
  | [], sub => sub
  | i :: p, sub => e.withChildren (e.children.modify i (·.replace p sub))

/-- An address leads through a child of the root. -/
theorem subtree?_cons_eq_some_iff {e node : Expr} {i : Nat} {p : Address} :
    e.subtree? (i :: p) = some node ↔
      ∃ child, e.children[i]? = some child ∧ child.subtree? p = some node :=
  Option.bind_eq_some_iff

/-- Behind the last child there is nothing to replace. -/
theorem replace_of_length_le {e : Expr} {i : Nat} (h : e.children.length ≤ i) (p : Address)
    (sub : Expr) : e.replace (i :: p) sub = e := by
  rw [replace, List.modify_eq_self h, withChildren_children]

/-! ## Evaluation is compositional -/

/-- A tree whose children evaluate as before evaluates as before. -/
theorem eval_withChildren {e : Expr} {children' : List Expr}
    (h : children'.map eval = e.children.map eval) : (e.withChildren children').eval = e.eval := by
  have hlength : children'.length = e.children.length := by
    simpa using congrArg List.length h
  cases e with
  | binary left operator right =>
    obtain ⟨left', right', rfl⟩ := List.length_eq_two.mp hlength
    obtain ⟨hleft, hright⟩ : left'.eval = left.eval ∧ right'.eval = right.eval := by
      simpa [children] using h
    rw [withChildren, eval, eval, hleft, hright]
  | grouping inner =>
    obtain ⟨inner', rfl⟩ := List.length_eq_one_iff.mp hlength
    simpa [children, withChildren, eval] using h
  | unary operator operand =>
    obtain ⟨operand', rfl⟩ := List.length_eq_one_iff.mp hlength
    have hoperand : operand'.eval = operand.eval := by simpa [children] using h
    rw [withChildren, eval, eval, hoperand]
  | literal value =>
    obtain rfl := List.length_eq_zero_iff.mp hlength
    rfl
  | _ =>
    -- The other forms fail before they look at a child.
    unfold withChildren
    split <;> simp_all [eval]

/-- A tree with a part replaced by one that evaluates alike evaluates as before. -/
theorem eval_replace {e sub sub' : Expr} {p : Address} (h : e.subtree? p = some sub)
    (heval : sub'.eval = sub.eval) : (e.replace p sub').eval = e.eval := by
  -- On each level one child is replaced by one that evaluates alike, and a node evaluates by what
  -- its children evaluate to.
  induction p generalizing e with
  | nil =>
    obtain rfl := Option.some.inj h
    exact heval
  | cons i p ih =>
    obtain ⟨child, hchild, hsub⟩ := subtree?_cons_eq_some_iff.mp h
    apply eval_withChildren
    apply List.ext_getElem?
    intro j
    rw [List.getElem?_map, List.getElem?_map, List.getElem?_modify]
    by_cases hij : i = j
    · subst hij
      simp [hchild, ih hsub]
    · simp [hij]

/-! ## Parentheses -/

/-- The second tree is the first one with parentheses put around parts of it or taken away, any
number of times. -/
inductive Regrouped : Expr → Expr → Prop
  | refl (e : Expr) : Regrouped e e
  | put {e e' sub : Expr} {p : Address} : Regrouped e e' → e'.subtree? p = some sub →
    Regrouped e (e'.replace p (.grouping sub))
  | taken {e e' sub : Expr} {p : Address} : Regrouped e e' → e'.subtree? p = some (.grouping sub) →
    Regrouped e (e'.replace p sub)

/-- Parentheses do not change a value. -/
theorem eval_grouping (inner : Expr) : (grouping inner).eval = inner.eval := rfl

/-- Parentheses do not change what a tree evaluates to. -/
theorem Regrouped.eval_eq {e e' : Expr} (h : Regrouped e e') : e'.eval = e.eval := by
  induction h with
  | refl => rfl
  | put _ hsub ih => exact (eval_replace hsub (eval_grouping _)).trans ih
  | taken _ hsub ih => exact (eval_replace hsub (eval_grouping _).symm).trans ih

end Expr

end LoxCalc
