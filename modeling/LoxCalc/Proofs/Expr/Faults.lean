import LoxCalc.Expr.Eval
import LoxCalc.Proofs.Grammar

/-!
# Which faults evaluation has

The evaluator knows the operators by a table of its own. On trees whose operators are those of the
grammar (`Supported`) it misses none of them: applying an operator fails only for the sake of the
operands, and with the cause that belongs to the operator (`applyUnary_eq_error`,
`applyBinary_eq_error`). A fault of a whole tree is raised by one of its nodes, whose operands do
have values (`Supported.exists_raises`), so that it is at the operator of that node
(`Supported.atOperator`).
-/

namespace LoxCalc

namespace Expr

open Grammar (binaryOperators)

/-- A tree of literals, groupings, prefix operations and binary operations, with the operators of
the grammar. -/
inductive Supported : Expr → Prop
  /-- A literal. -/
  | literal (value : Literal) : Supported (.literal value)
  /-- A parenthesized tree. -/
  | grouping {inner : Expr} : Supported inner → Supported (.grouping inner)
  /-- A prefix operation. -/
  | unary {operator : Token} {operand : Expr} :
    operator.kind = .bang ∨ operator.kind = .minus → Supported operand →
    Supported (.unary operator operand)
  /-- A binary operation. -/
  | binary {left right : Expr} {operator : Token} :
    operator.kind ∈ binaryOperators → Supported left → Supported right →
    Supported (.binary left operator right)

end Expr

namespace Grammar

/-- The operators of every level of the grammar stand between two operands. -/
theorem mem_binaryOperators {level : Level} {kind : TokenKind} (h : kind ∈ operators level) :
    kind ∈ binaryOperators := by
  revert h
  cases level <;> cases kind <;> decide

/-- Every tree of the grammar is supported. -/
theorem Derives.supported {s : Symbol} {word : List Token} {e : Expr} (h : Derives s word e) :
    e.Supported := by
  induction h with
  | operand _ ih | primary _ ih => exact ih
  | binary _ hop _ ihl ihr => exact .binary (mem_binaryOperators hop) ihl ihr
  | unary hop _ ih => exact .unary hop ih
  | trueWord _ | falseWord _ | nilWord _ | carried _ _ => exact .literal _
  | grouping _ _ _ ih => exact .grouping ih

end Grammar

namespace Expr

open Grammar (binaryOperators)

/-- The tree `node` is a part of a tree, or all of it. -/
inductive Within (node : Expr) : Expr → Prop
  | self : Within node node
  | grouping {inner : Expr} : Within node inner → Within node (.grouping inner)
  | unary {operator : Token} {operand : Expr} :
    Within node operand → Within node (.unary operator operand)
  | left {left right : Expr} {operator : Token} :
    Within node left → Within node (.binary left operator right)
  | right {left right : Expr} {operator : Token} :
    Within node right → Within node (.binary left operator right)

/-- A node whose operands have values, to which its operator cannot be applied. -/
inductive Raises : Expr → RuntimeFault → Prop
  | unary {operator : Token} {operand : Expr} {v : Value} {f : RuntimeFault} :
    operand.eval = .ok v → applyUnary operator v = .error f → Raises (.unary operator operand) f
  | binary {left right : Expr} {operator : Token} {l r : Value} {f : RuntimeFault} :
    left.eval = .ok l → right.eval = .ok r → applyBinary operator l r = .error f →
    Raises (.binary left operator right) f

/-! ## Applying operators -/

/-- The operators that take two numbers and nothing else. -/
def numericOperators : List TokenKind :=
  [.greater, .greaterEqual, .less, .lessEqual, .minus, .slash, .star]

/-- Of the prefix operators only the minus can fail. -/
theorem applyUnary_eq_error {operator : Token} {v : Value} {f : RuntimeFault}
    (hop : operator.kind = .bang ∨ operator.kind = .minus)
    (h : applyUnary operator v = .error f) :
    operator.kind = .minus ∧ f = ⟨.operandMustBeNumber, operator⟩ := by
  rcases hop with hop | hop
  · -- Every value has a truth value, so that only a sign can fail.
    simp [applyUnary, hop] at h
  · refine ⟨hop, ?_⟩
    unfold applyUnary at h
    rw [hop] at h
    cases v with
    | number x => cases h
    | _ => exact (Except.error.inj h).symm

/-- The only fault of an operator on numbers is that an operand is none. -/
theorem applyNumeric_eq_error {operator : Token} {operation : Float → Float → Value}
    {l r : Value} {f : RuntimeFault} (h : applyNumeric operator operation l r = .error f) :
    f = ⟨.operandsMustBeNumbers, operator⟩ := by
  unfold applyNumeric at h
  split at h
  · cases h
  · exact (Except.error.inj h).symm

/-- The only fault of an addition is that the operands are neither numbers nor strings. -/
theorem applyPlus_eq_error {operator : Token} {l r : Value} {f : RuntimeFault}
    (h : applyPlus operator l r = .error f) :
    f = ⟨.operandsMustBeNumbersOrStrings, operator⟩ := by
  unfold applyPlus at h
  split at h
  · cases h
  · cases h
  · exact (Except.error.inj h).symm

/-- Of the binary operators the equalities cannot fail, and the plus fails in its own way. -/
theorem applyBinary_eq_error {operator : Token} {l r : Value} {f : RuntimeFault}
    (hop : operator.kind ∈ binaryOperators) (h : applyBinary operator l r = .error f) :
    (operator.kind ∈ numericOperators ∧ f = ⟨.operandsMustBeNumbers, operator⟩) ∨
      (operator.kind = .plus ∧ f = ⟨.operandsMustBeNumbersOrStrings, operator⟩) := by
  unfold applyBinary at h
  split at h
  · cases h
  · cases h
  · next hk => exact .inr ⟨hk, applyPlus_eq_error h⟩
  case h_11 =>
    -- The table of the evaluator has an entry for every operator of the grammar.
    simp only [binaryOperators, List.mem_cons, List.not_mem_nil, or_false] at hop
    simp_all
  all_goals
    next hk =>
    refine .inl ⟨?_, applyNumeric_eq_error h⟩
    rw [hk]
    decide

/-! ## The fault of a tree -/

/-- Every node of a supported tree is supported. -/
theorem Supported.of_within {node e : Expr} (h : e.Supported) (hnode : Within node e) :
    node.Supported := by
  induction hnode with
  | self => exact h
  | grouping _ ih =>
    cases h with
    | grouping hinner => exact ih hinner
  | unary _ ih =>
    cases h with
    | unary _ hoperand => exact ih hoperand
  | left _ ih =>
    cases h with
    | binary _ hleft _ => exact ih hleft
  | right _ ih =>
    cases h with
    | binary _ _ hright => exact ih hright

/-- A tree fails because one of its nodes does. -/
theorem Supported.exists_raises {e : Expr} (h : e.Supported) {f : RuntimeFault}
    (hf : e.eval = .error f) : ∃ node, Within node e ∧ Raises node f := by
  induction h with
  | literal value => cases hf
  | grouping _ ih =>
    obtain ⟨node, hnode, hraises⟩ := ih hf
    exact ⟨node, .grouping hnode, hraises⟩
  | @unary operator operand _ _ ih =>
    cases hoperand : operand.eval with
    | error f' =>
      simp only [eval, hoperand] at hf
      cases hf
      obtain ⟨node, hnode, hraises⟩ := ih hoperand
      exact ⟨node, .unary hnode, hraises⟩
    | ok v =>
      simp only [eval, hoperand] at hf
      exact ⟨_, .self, .unary hoperand hf⟩
  | @binary left right operator _ _ _ ihl ihr =>
    -- The right operand is looked at only if the left one has a value.
    cases hleft : left.eval with
    | error f' =>
      simp only [eval, hleft] at hf
      cases hf
      obtain ⟨node, hnode, hraises⟩ := ihl hleft
      exact ⟨node, .left hnode, hraises⟩
    | ok l =>
      cases hright : right.eval with
      | error f' =>
        simp only [eval, hleft, hright] at hf
        cases hf
        obtain ⟨node, hnode, hraises⟩ := ihr hright
        exact ⟨node, .right hnode, hraises⟩
      | ok r =>
        simp only [eval, hleft, hright] at hf
        exact ⟨_, .self, .binary hleft hright hf⟩

end Expr

/-- The fault is at an operator of the tree, and its cause is the one that belongs to the
operator. -/
def RuntimeFault.AtOperatorOf (e : Expr) (f : RuntimeFault) : Prop :=
  match f.cause with
  | .operandMustBeNumber =>
    f.token.kind = .minus ∧ ∃ operand, Expr.Within (.unary f.token operand) e
  | .operandsMustBeNumbers =>
    f.token.kind ∈ Expr.numericOperators ∧ ∃ left right, Expr.Within (.binary left f.token right) e
  | .operandsMustBeNumbersOrStrings =>
    f.token.kind = .plus ∧ ∃ left right, Expr.Within (.binary left f.token right) e
  | .invalidOperator | .unsupportedExpression => False

/-- The fault of a supported tree is at one of its operators. -/
theorem Expr.Supported.atOperator {e : Expr} (h : e.Supported) {f : RuntimeFault}
    (hf : e.eval = .error f) : f.AtOperatorOf e := by
  obtain ⟨node, hnode, hraises⟩ := h.exists_raises hf
  have hsupported := h.of_within hnode
  -- The node that raises the fault has an operator of the grammar, whose own rule says which fault.
  cases hraises with
  | @unary operator operand v f hoperand happly =>
    cases hsupported with
    | unary hop _ =>
      obtain ⟨hkind, rfl⟩ := applyUnary_eq_error hop happly
      exact ⟨hkind, operand, hnode⟩
  | @binary left right operator l r f hleft hright happly =>
    cases hsupported with
    | binary hop _ _ =>
      rcases applyBinary_eq_error hop happly with ⟨hkind, rfl⟩ | ⟨hkind, rfl⟩
      · exact ⟨hkind, left, right, hnode⟩
      · exact ⟨hkind, left, right, hnode⟩

end LoxCalc
