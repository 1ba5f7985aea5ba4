import LoxCalc.Proofs.Expr.Address
import LoxCalc.Proofs.Expr.Faults

/-!
# The first fault wins

Evaluation visits the operands of a node from left to right and then the node itself; below the
forms that it does not support it visits nothing. `Expr.visited` lists the addresses in that order.
The fault of a tree is the one that is raised by the first of these nodes whose own rule fails
(`Expr.FirstFault`), so that nothing to the right of that node matters (`Expr.first_fault_wins`).

The order says nothing about how evaluation gets to the node. `Expr.RaisedAt` does: it follows the
recursion of evaluation from the root to the node, past left operands that have values. It is what
the inductions are on, and `Expr.firstFault_iff` shows that it finds the same nodes.
-/

namespace LoxCalc

/-- The first address leads to a node on the left of the node that the second leads to: where the
ways part, it goes to an earlier child. -/
def Address.LeftOf (p q : Address) : Prop :=
  ∃ common i j p' q', p = common ++ i :: p' ∧ q = common ++ j :: q' ∧ i < j

/-- Nothing stands to the right of the root. -/
theorem Address.not_leftOf_nil (q : Address) : ¬Address.LeftOf [] q := by
  rintro ⟨common, i, j, p', q', hp, -, -⟩
  simp at hp

/-- The ways part at the root, or behind the same child. -/
theorem Address.LeftOf.cases {i : Nat} {p q : Address} (h : Address.LeftOf (i :: p) q) :
    ∃ j q', q = j :: q' ∧ (i < j ∨ (i = j ∧ Address.LeftOf p q')) := by
  obtain ⟨common, a, b, p', q', hp, rfl, hab⟩ := h
  -- The paths part at the root or further down, behind the same child.
  cases common with
  | nil =>
    obtain ⟨rfl, -⟩ := List.cons.inj hp
    exact ⟨b, q', rfl, .inl hab⟩
  | cons k common =>
    obtain ⟨rfl, rfl⟩ := List.cons.inj hp
    exact ⟨i, _, rfl, .inr ⟨rfl, common, a, b, p', q', rfl, rfl, hab⟩⟩

namespace Expr

/-! ## The nodes in the order of evaluation -/

/-- The addresses of the nodes that evaluation visits, in its order. -/
def visited : Expr → List Address
  | .grouping inner => inner.visited.map (0 :: ·) ++ [[]]
  | .unary _ operand => operand.visited.map (0 :: ·) ++ [[]]
  | .binary left _ right => left.visited.map (0 :: ·) ++ right.visited.map (1 :: ·) ++ [[]]
  | _ => [[]]

/-- The token at which a form is reported that evaluation does not support. -/
def unsupportedAt? : Expr → Option Token
  | .assign name _ | .get _ name | .set _ name _ | .variable name => some name
  | .call _ paren _ => some paren
  | .logical _ operator _ => some operator
  | .super keyword _ | .this keyword => some keyword
  | _ => none

/-- A node whose own rule fails: its operands have values, to which its operator cannot be applied,
or it has no rule at all. -/
inductive Fails : Expr → RuntimeFault → Prop
  | operation {node : Expr} {f : RuntimeFault} : Raises node f → Fails node f
  | unsupported {node : Expr} {token : Token} :
    node.unsupportedAt? = some token → Fails node ⟨.unsupportedExpression, token⟩

/-- The node at the address fails by its own rule. -/
def FailsAt (e : Expr) (p : Address) (f : RuntimeFault) : Prop :=
  ∃ node, e.subtree? p = some node ∧ Fails node f

/-- The node at the address is the first in the order of evaluation whose own rule fails, and `f` is
the fault it raises. -/
structure FirstFault (e : Expr) (p : Address) (f : RuntimeFault) : Prop where
  /-- The node fails with the fault. -/
  fails : e.FailsAt p f
  /-- No node before it fails. -/
  first : ∃ before after, e.visited = before ++ p :: after ∧
    ∀ q ∈ before, ∀ f', ¬e.FailsAt q f'

/-! ## Nodes with values do not fail -/

/-- A node that fails by its own rule has no value. -/
theorem Fails.eval_eq {node : Expr} {f : RuntimeFault} (h : Fails node f) :
    node.eval = .error f := by
  cases h with
  | operation hraises =>
    cases hraises with
    | unary hoperand happly =>
      rw [eval, hoperand]
      exact happly
    | binary hleft hright happly =>
      rw [eval, hleft, hright]
      exact happly
  | unsupported htoken =>
    cases node <;> cases htoken <;> rfl

/-- A tree fails at its root by the rule of its root. -/
theorem failsAt_nil {e : Expr} {f : RuntimeFault} : e.FailsAt [] f ↔ Fails e f := by
  simp [FailsAt, subtree?]

/-- A tree fails below its root where one of its children fails. -/
theorem failsAt_cons {e : Expr} {i : Nat} {p : Address} {f : RuntimeFault} :
    e.FailsAt (i :: p) f ↔ ∃ child, e.children[i]? = some child ∧ child.FailsAt p f := by
  simp only [FailsAt, subtree?_cons_eq_some_iff]
  constructor
  · rintro ⟨node, ⟨child, hchild, hnode⟩, hfails⟩
    exact ⟨child, hchild, node, hnode, hfails⟩
  · rintro ⟨child, hchild, node, hnode, hfails⟩
    exact ⟨node, ⟨child, hchild, hnode⟩, hfails⟩

/-- Nodes that do not fail in a child do not fail in the tree. -/
theorem not_failsAt_map {e child : Expr} {i : Nat} (hchild : e.children[i]? = some child)
    {qs : List Address} {f : RuntimeFault} (h : ∀ q ∈ qs, ¬child.FailsAt q f) :
    ∀ q ∈ qs.map (i :: ·), ¬e.FailsAt q f := by
  intro q hq hfails
  obtain ⟨q', hq', rfl⟩ := List.mem_map.mp hq
  obtain ⟨child', hchild', hfails'⟩ := failsAt_cons.mp hfails
  rw [hchild, Option.some.injEq] at hchild'
  exact h q' hq' (hchild' ▸ hfails')

/-- The root of a tree that has a value does not fail. -/
theorem not_failsAt_root {e : Expr} {v : Value} (h : e.eval = .ok v) (f : RuntimeFault) :
    ∀ q ∈ [[]], ¬e.FailsAt q f := by
  intro q hq hfails
  rw [List.mem_singleton.mp hq, failsAt_nil] at hfails
  rw [hfails.eval_eq] at h
  cases h

/-- The operand of an operation that has a value has one. -/
theorem exists_eval_of_unary {operator : Token} {operand : Expr} {v : Value}
    (h : (unary operator operand).eval = .ok v) : ∃ w, operand.eval = .ok w := by
  cases hoperand : operand.eval with
  | ok w => exact ⟨w, rfl⟩
  | error f =>
    rw [eval, hoperand] at h
    cases h

/-- Both operands of an operation that has a value have one. -/
theorem exists_eval_of_binary {left right : Expr} {operator : Token} {v : Value}
    (h : (binary left operator right).eval = .ok v) :
    ∃ l r, left.eval = .ok l ∧ right.eval = .ok r := by
  cases hleft : left.eval with
  | error f =>
    rw [eval, hleft] at h
    cases h
  | ok l =>
    cases hright : right.eval with
    | error f =>
      rw [eval, hleft, hright] at h
      cases h
    | ok r => exact ⟨l, r, rfl, rfl⟩

/-- Where evaluation gets a value, no node that it visits fails. -/
theorem not_failsAt_of_eval_eq_ok {e : Expr} {v : Value} (h : e.eval = .ok v) (f : RuntimeFault) :
    ∀ q ∈ e.visited, ¬e.FailsAt q f := by
  -- The children of a node that has a value have values, and the node comes last.
  fun_induction visited e generalizing v with
  | case1 inner ih =>
    exact List.forall_mem_append.mpr ⟨not_failsAt_map rfl (ih h), not_failsAt_root h f⟩
  | case2 operator operand ih =>
    obtain ⟨w, hoperand⟩ := exists_eval_of_unary h
    exact List.forall_mem_append.mpr ⟨not_failsAt_map rfl (ih hoperand), not_failsAt_root h f⟩
  | case3 left operator right ihl ihr =>
    obtain ⟨l, r, hleft, hright⟩ := exists_eval_of_binary h
    rw [List.forall_mem_append, List.forall_mem_append]
    exact ⟨⟨not_failsAt_map rfl (ihl hleft), not_failsAt_map rfl (ihr hright)⟩,
      not_failsAt_root h f⟩
  | case4 => exact not_failsAt_root h f

/-! ## The way of evaluation to the fault -/

/-- Evaluation goes from the root to the node at the address and fails there by the rule of that
node. -/
inductive RaisedAt : Expr → Address → RuntimeFault → Prop
  | here {node : Expr} {f : RuntimeFault} : Fails node f → RaisedAt node [] f
  | grouping {inner : Expr} {p : Address} {f : RuntimeFault} :
    RaisedAt inner p f → RaisedAt (.grouping inner) (0 :: p) f
  | unary {operator : Token} {operand : Expr} {p : Address} {f : RuntimeFault} :
    RaisedAt operand p f → RaisedAt (.unary operator operand) (0 :: p) f
  | left {left right : Expr} {operator : Token} {p : Address} {f : RuntimeFault} :
    RaisedAt left p f → RaisedAt (.binary left operator right) (0 :: p) f
  | right {left right : Expr} {operator : Token} {v : Value} {p : Address} {f : RuntimeFault} :
    left.eval = .ok v → RaisedAt right p f → RaisedAt (.binary left operator right) (1 :: p) f

/-- What is raised on the way of evaluation is the fault of the tree. -/
theorem RaisedAt.eval_eq {e : Expr} {p : Address} {f : RuntimeFault} (h : RaisedAt e p f) :
    e.eval = .error f := by
  induction h with
  | here hfails => exact hfails.eval_eq
  | grouping _ ih => exact ih
  | unary _ ih | left _ ih =>
    rw [eval, ih]
    rfl
  | right hleft _ ih =>
    rw [eval, hleft, ih]
    rfl

/-- The fault of a tree is raised somewhere on the way of evaluation. -/
theorem exists_raisedAt {e : Expr} {f : RuntimeFault} (h : e.eval = .error f) :
    ∃ p, RaisedAt e p f := by
  -- The first operand without a value is where the fault is raised; if all have one, it is the node
  -- itself.
  fun_induction eval e with
  | case1 value => cases h
  | case2 inner ih =>
    obtain ⟨p, hp⟩ := ih h
    exact ⟨0 :: p, .grouping hp⟩
  | case3 operator operand ih =>
    cases hoperand : operand.eval with
    | error f' =>
      rw [hoperand] at h ih
      obtain ⟨p, hp⟩ := ih h
      exact ⟨0 :: p, .unary hp⟩
    | ok v =>
      rw [hoperand] at h
      exact ⟨[], .here (.operation (.unary hoperand h))⟩
  | case4 left operator right ihl ihr =>
    cases hleft : left.eval with
    | error f' =>
      rw [hleft] at h ihl
      obtain ⟨p, hp⟩ := ihl h
      exact ⟨0 :: p, .left hp⟩
    | ok l =>
      cases hright : right.eval with
      | error f' =>
        rw [hleft, hright] at h
        rw [hright] at ihr
        obtain ⟨p, hp⟩ := ihr h
        exact ⟨1 :: p, .right hleft hp⟩
      | ok r =>
        rw [hleft, hright] at h
        exact ⟨[], .here (.operation (.binary hleft hright h))⟩
  | _ =>
    cases h
    exact ⟨[], .here (.unsupported rfl)⟩

/-- A fault that is the first in a child is the first in the tree, if nothing that is visited before
the child fails. -/
theorem FirstFault.of_child {e child : Expr} {i : Nat} {p : Address} {f : RuntimeFault}
    {front back : List Address} (hchild : e.children[i]? = some child)
    (hvisited : e.visited = front ++ child.visited.map (i :: ·) ++ back)
    (hfront : ∀ f', ∀ q ∈ front, ¬e.FailsAt q f') (h : child.FirstFault p f) :
    e.FirstFault (i :: p) f := by
  obtain ⟨hfails, before, after, hbefore, hnone⟩ := h
  -- What is visited before the node is what comes before the child and, in the child, before the
  -- node.
  refine ⟨failsAt_cons.mpr ⟨child, hchild, hfails⟩, front ++ before.map (i :: ·),
    after.map (i :: ·) ++ back, ?_, fun q hq f' => ?_⟩
  · rw [hvisited, hbefore]
    simp
  · rcases List.mem_append.mp hq with hq | hq
    · exact hfront f' q hq
    · exact not_failsAt_map hchild (fun q hq => hnone q hq f') q hq

/-- A fault of the root is the first if nothing that is visited below it fails. -/
theorem FirstFault.of_root {e : Expr} {f : RuntimeFault} {front : List Address}
    (hvisited : e.visited = front ++ [[]]) (hfront : ∀ f', ∀ q ∈ front, ¬e.FailsAt q f')
    (h : Fails e f) : e.FirstFault [] f :=
  ⟨failsAt_nil.mpr h, front, [], hvisited, fun q hq f' => hfront f' q hq⟩

/-- On the way of evaluation to a fault no node fails before the one where the fault is raised. -/
theorem RaisedAt.firstFault {e : Expr} {p : Address} {f : RuntimeFault} (h : RaisedAt e p f) :
    e.FirstFault p f := by
  -- What is visited before the node has values, and so does not fail.
  have hvalues {e child : Expr} {v : Value} {i : Nat} (hchild : e.children[i]? = some child)
      (hv : child.eval = .ok v) (f' : RuntimeFault) :
      ∀ q ∈ child.visited.map (i :: ·), ¬e.FailsAt q f' :=
    not_failsAt_map hchild (not_failsAt_of_eval_eq_ok hv f')
  induction h with
  | @here node f hfails =>
    cases hfails with
    | operation hraises =>
      have hfails := Fails.operation hraises
      cases hraises with
      | unary hoperand _ => exact .of_root rfl (hvalues rfl hoperand) hfails
      | binary hleft hright _ =>
        refine .of_root rfl (fun f' => ?_) hfails
        exact List.forall_mem_append.mpr ⟨hvalues rfl hleft f', hvalues rfl hright f'⟩
    | unsupported htoken =>
      have hvisited : node.visited = [] ++ [[]] := by
        cases node with
        | literal _ | grouping _ | unary _ _ | binary _ _ _ => cases htoken
        | _ => rfl
      exact .of_root hvisited (fun _ => List.forall_mem_nil _) (.unsupported htoken)
  | grouping _ ih | unary _ ih => exact .of_child rfl rfl (fun _ => List.forall_mem_nil _) ih
  | @left left right operator p f _ ih =>
    have hvisited : (binary left operator right).visited = [] ++ left.visited.map (0 :: ·) ++
        (right.visited.map (1 :: ·) ++ [[]]) := List.append_assoc _ _ _
    exact .of_child rfl hvisited (fun _ => List.forall_mem_nil _) ih
  | right hleft _ ih => exact .of_child rfl rfl (hvalues rfl hleft) ih

/-- Of the elements with a property there is one first. -/
theorem eq_of_first {α : Type} {P : α → Prop} {before before' after after' : List α} {x x' : α}
    (h : before ++ x :: after = before' ++ x' :: after') (hx : P x) (hx' : P x')
    (hbefore : ∀ y ∈ before, ¬P y) (hbefore' : ∀ y ∈ before', ¬P y) : x = x' := by
  -- One of the two beginnings is the shorter one. Unless they are equal, the element behind it lies
  -- in the other.
  rcases List.append_eq_append_iff.mp h with ⟨more, rfl, hmore⟩ | ⟨more, rfl, hmore⟩
  · cases more with
    | nil => exact (List.cons.inj hmore).1
    | cons y more =>
      obtain rfl := (List.cons.inj hmore).1
      exact absurd hx (hbefore' x (by simp))
  · cases more with
    | nil => exact (List.cons.inj hmore).1.symm
    | cons y more =>
      obtain rfl := (List.cons.inj hmore).1
      exact absurd hx' (hbefore x' (by simp))

/-- A node fails in one way. -/
theorem FailsAt.unique {e : Expr} {p : Address} {f f' : RuntimeFault} (h : e.FailsAt p f)
    (h' : e.FailsAt p f') : f = f' := by
  obtain ⟨node, hnode, hfails⟩ := h
  obtain ⟨node', hnode', hfails'⟩ := h'
  rw [hnode, Option.some.injEq] at hnode'
  subst hnode'
  have heval := hfails.eval_eq
  rw [hfails'.eval_eq] at heval
  exact (Except.error.inj heval).symm

/-- There is one first fault, and one node that raises it. -/
theorem FirstFault.unique {e : Expr} {p p' : Address} {f f' : RuntimeFault}
    (h : e.FirstFault p f) (h' : e.FirstFault p' f') : p = p' ∧ f = f' := by
  obtain ⟨hfails, before, after, hvisited, hbefore⟩ := h
  obtain ⟨hfails', before', after', hvisited', hbefore'⟩ := h'
  have hp : p = p' := by
    refine eq_of_first (P := fun q => ∃ f, e.FailsAt q f) (hvisited.symm.trans hvisited')
      ⟨f, hfails⟩ ⟨f', hfails'⟩ (fun q hq => ?_) (fun q hq => ?_)
    · exact fun ⟨f, hf⟩ => hbefore q hq f hf
    · exact fun ⟨f, hf⟩ => hbefore' q hq f hf
  subst hp
  exact ⟨rfl, hfails.unique hfails'⟩

/-- The way of evaluation leads to the first fault, and there is no other. -/
theorem firstFault_iff {e : Expr} {p : Address} {f : RuntimeFault} :
    e.FirstFault p f ↔ RaisedAt e p f := by
  refine ⟨fun h => ?_, RaisedAt.firstFault⟩
  cases heval : e.eval with
  | ok v =>
    -- Nothing fails where there is a value, but the first fault is among what is visited.
    obtain ⟨hfails, before, after, hvisited, -⟩ := h
    exact absurd hfails (not_failsAt_of_eval_eq_ok heval f p (by simp [hvisited]))
  | error f' =>
    obtain ⟨p', hraised⟩ := exists_raisedAt heval
    obtain ⟨rfl, rfl⟩ := h.unique hraised.firstFault
    exact hraised

/-! ## What stands to the right -/

/-- Another tree to the right of the node leaves the way of evaluation to it as it is. -/
theorem RaisedAt.replace {e : Expr} {p : Address} {f : RuntimeFault} (h : RaisedAt e p f)
    {q : Address} (hq : p.LeftOf q) (sub : Expr) : RaisedAt (e.replace q sub) p f := by
  induction h generalizing q with
  | here _ => exact absurd hq (Address.not_leftOf_nil q)
  | @grouping inner p f hraised ih =>
    obtain ⟨j, q, rfl, hj | ⟨rfl, hbehind⟩⟩ := hq.cases
    · rw [replace_of_length_le hj]
      exact .grouping hraised
    · exact .grouping (ih hbehind)
  | @unary operator operand p f hraised ih =>
    obtain ⟨j, q, rfl, hj | ⟨rfl, hbehind⟩⟩ := hq.cases
    · rw [replace_of_length_le hj]
      exact .unary hraised
    · exact .unary (ih hbehind)
  | @left left right operator p f hraised ih =>
    obtain ⟨j, q, rfl, hj | ⟨rfl, hbehind⟩⟩ := hq.cases
    · -- The replaced part is all or a part of the right operand, which evaluation does not reach.
      match j, hj with
      | 1, _ => exact .left hraised
      | j + 2, _ =>
        rw [replace_of_length_le (Nat.le_add_left 2 j)]
        exact .left hraised
    · exact .left (ih hbehind)
  | @right left right operator v p f hleft hraised ih =>
    obtain ⟨j, q, rfl, hj | ⟨rfl, hbehind⟩⟩ := hq.cases
    · rw [replace_of_length_le hj]
      exact .right hleft hraised
    · exact .right hleft (ih hbehind)

/-- A tree fails exactly if some node fails by its own rule, with the fault of the first such node
in the order of evaluation. Any tree can stand to the right of that node without a change of the
fault. A part can be replaced by any other that evaluates alike, and parentheses can be put and
taken away, without a change of what the tree evaluates to. -/
theorem first_fault_wins (e : Expr) :
    (∀ f, e.eval = .error f ↔ ∃! p, e.FirstFault p f) ∧
    (∀ p f, e.FirstFault p f → ∀ q, p.LeftOf q → ∀ sub, (e.replace q sub).eval = .error f) ∧
    (∀ p sub sub', e.subtree? p = some sub → sub'.eval = sub.eval →
      (e.replace p sub').eval = e.eval) ∧
    ∀ e', Regrouped e e' → e'.eval = e.eval := by
  -- The visited nodes say which fault is the first, and the rules of `RaisedAt` what it depends on.
  refine ⟨fun f => ⟨fun h => ?_, ?_⟩, ?_, ?_, ?_⟩
  · obtain ⟨p, hraised⟩ := exists_raisedAt h
    exact ⟨p, hraised.firstFault, fun p' h' => (h'.unique hraised.firstFault).1⟩
  · rintro ⟨p, hfirst, -⟩
    exact (firstFault_iff.mp hfirst).eval_eq
  · intro p f hfirst q hq sub
    exact ((firstFault_iff.mp hfirst).replace hq sub).eval_eq
  · intro p sub sub' hsub heval
    exact eval_replace hsub heval
  · intro e' hregrouped
    exact hregrouped.eval_eq

/-- In `(-"a") + (1 < nil)` both operands fail. The fault is the left one's, also with a variable in
place of the right operand. -/
theorem first_fault_wins_left_operand :
    let minus : Token := ⟨.minus, "-", none, 1⟩
    let tree : Expr := .binary (.grouping (.unary minus (.literal (.string "a"))))
      ⟨.plus, "+", none, 1⟩
      (.grouping (.binary (.literal (.number 1)) ⟨.less, "<", none, 1⟩ (.literal .nil)))
    let x : Expr := .variable ⟨.identifier, "x", none, 1⟩
    tree.FirstFault [0, 0] ⟨.operandMustBeNumber, minus⟩ ∧ Address.LeftOf [0, 0] [1] ∧
      (tree.replace [1] x).eval = .error ⟨.operandMustBeNumber, minus⟩ := by
  intro minus tree x
  have hraised : tree.RaisedAt [0, 0] ⟨.operandMustBeNumber, minus⟩ :=
    .left (.grouping (.here (.operation (.unary rfl rfl))))
  have hleft : Address.LeftOf [0, 0] [1] := ⟨[], 0, 1, [0], [], rfl, rfl, Nat.zero_lt_one⟩
  obtain ⟨-, hright, -, -⟩ := first_fault_wins tree
  exact ⟨hraised.firstFault, hleft, hright _ _ hraised.firstFault _ hleft x⟩

end Expr

end LoxCalc
