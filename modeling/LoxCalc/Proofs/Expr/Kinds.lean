import LoxCalc.Expr.Eval
import Mathlib.Data.List.Forall2

/-!
# Evaluation looks at kinds only

No branch of the evaluator is taken for the content of a string, a number or a truth value: division
by zero, undefined numbers, empty strings and false operands are values like others. So whether a
tree has a value, of which kind it is, and which fault is raised otherwise, is decided by the kinds
of its literals.

`Skeleton` is what is left of a tree when contents are left out, and `Skeleton.eval` evaluates it
with tables of kinds. The carrying lemma is `Expr.eval_skeleton`: the kind of the value of a tree is
the value of its skeleton. Each table of the evaluator has to follow its table of kinds for that
(`applyUnary_kind`, `applyBinary_kind`). Trees that differ in contents only have one skeleton
(`Expr.Alike.skeleton_eq`).
-/

namespace LoxCalc

/-- The kinds of values. -/
inductive ValueKind where
  | string
  | number
  | boolean
  | nil
  deriving DecidableEq, Repr

/-- The kind of a value. -/
def Value.kind : Value → ValueKind
  | .string _ => .string
  | .number _ => .number
  | .boolean _ => .boolean
  | .nil => .nil

/-- The kind of a literal. -/
def Literal.kind : Literal → ValueKind
  | .string _ => .string
  | .number _ => .number
  | .true | .false => .boolean
  | .nil => .nil

/-- The value of a literal is of the kind of the literal. -/
theorem Value.kind_ofLiteral (l : Literal) : (Value.ofLiteral l).kind = l.kind := by
  cases l <;> rfl

/-! ## Evaluation of kinds -/

/-- What evaluation sees of a tree without the contents of its literals. A form that cannot be
evaluated is the token that it is reported at. -/
inductive Skeleton where
  /-- A literal of some kind. -/
  | literal (kind : ValueKind)
  /-- A parenthesized tree. -/
  | grouping (inner : Skeleton)
  /-- A prefix operation. -/
  | unary (operator : Token) (operand : Skeleton)
  /-- A binary operation. -/
  | binary (left : Skeleton) (operator : Token) (right : Skeleton)
  /-- Any other form. -/
  | unsupported (token : Token)

namespace Skeleton

/-- What a prefix operator makes of a kind. -/
def applyUnary (operator : Token) (operand : ValueKind) : Except RuntimeFault ValueKind :=
  match operator.kind with
  | .bang => .ok .boolean
  | .minus =>
    if operand = .number then .ok .number else .error ⟨.operandMustBeNumber, operator⟩
  | _ => .error ⟨.invalidOperator, operator⟩

/-- What an operation on two numbers makes of two kinds. -/
def applyNumeric (operator : Token) (result left right : ValueKind) :
    Except RuntimeFault ValueKind :=
  if left = .number ∧ right = .number then .ok result
  else .error ⟨.operandsMustBeNumbers, operator⟩

/-- What the plus makes of two kinds: both have to be the one or the other that it takes. -/
def applyPlus (operator : Token) (left right : ValueKind) : Except RuntimeFault ValueKind :=
  if left = right ∧ (left = .number ∨ left = .string) then .ok left
  else .error ⟨.operandsMustBeNumbersOrStrings, operator⟩

/-- What a binary operator makes of two kinds. -/
def applyBinary (operator : Token) (left right : ValueKind) : Except RuntimeFault ValueKind :=
  match operator.kind with
  | .equalEqual | .bangEqual => .ok .boolean
  | .plus => applyPlus operator left right
  | .greater | .greaterEqual | .less | .lessEqual => applyNumeric operator .boolean left right
  | .minus | .slash | .star => applyNumeric operator .number left right
  | _ => .error ⟨.invalidOperator, operator⟩

/-- The kind of the value of a skeleton. -/
def eval : Skeleton → Except RuntimeFault ValueKind
  | literal kind => .ok kind
  | grouping inner => inner.eval
  | unary operator operand => do
    let k ← operand.eval
    applyUnary operator k
  | binary left operator right => do
    let l ← left.eval
    let r ← right.eval
    applyBinary operator l r
  | unsupported token => .error ⟨.unsupportedExpression, token⟩

end Skeleton

/-! ## Trees and their skeletons -/

namespace Expr

/-- The skeleton of a tree. -/
def skeleton : Expr → Skeleton
  | .literal value => .literal value.kind
  | .grouping inner => .grouping inner.skeleton
  | .unary operator operand => .unary operator operand.skeleton
  | .binary left operator right => .binary left.skeleton operator right.skeleton
  | .assign name _ | .get _ name | .set _ name _ | .variable name => .unsupported name
  | .call _ paren _ => .unsupported paren
  | .logical _ operator _ => .unsupported operator
  | .super keyword _ | .this keyword => .unsupported keyword

/-- Two trees of the same shape with the same tokens, in which literals at the same place have the
same kind. -/
inductive Alike : Expr → Expr → Prop
  | assign {name : Token} {value value' : Expr} :
    Alike value value' → Alike (.assign name value) (.assign name value')
  | binary {left left' right right' : Expr} {operator : Token} :
    Alike left left' → Alike right right' →
    Alike (.binary left operator right) (.binary left' operator right')
  | call {callee callee' : Expr} {paren : Token} {arguments arguments' : List Expr} :
    Alike callee callee' → List.Forall₂ Alike arguments arguments' →
    Alike (.call callee paren arguments) (.call callee' paren arguments')
  | get {object object' : Expr} {name : Token} :
    Alike object object' → Alike (.get object name) (.get object' name)
  | grouping {inner inner' : Expr} :
    Alike inner inner' → Alike (.grouping inner) (.grouping inner')
  | literal {value value' : Literal} :
    value.kind = value'.kind → Alike (.literal value) (.literal value')
  | logical {left left' right right' : Expr} {operator : Token} :
    Alike left left' → Alike right right' →
    Alike (.logical left operator right) (.logical left' operator right')
  | set {object object' value value' : Expr} {name : Token} :
    Alike object object' → Alike value value' →
    Alike (.set object name value) (.set object' name value')
  | super {keyword method : Token} : Alike (.super keyword method) (.super keyword method)
  | this {keyword : Token} : Alike (.this keyword) (.this keyword)
  | unary {operator : Token} {operand operand' : Expr} :
    Alike operand operand' → Alike (.unary operator operand) (.unary operator operand')
  | variable {name : Token} : Alike (.variable name) (.variable name)

/-- Trees that differ in contents only have the same skeleton. -/
theorem Alike.skeleton_eq {e e' : Expr} (h : Alike e e') : e.skeleton = e'.skeleton := by
  fun_induction skeleton e generalizing e' with
  | case1 value =>
    cases h with
    | literal hkind => rw [skeleton, hkind]
  | case2 inner ih =>
    cases h with
    | grouping hinner => rw [skeleton, ih hinner]
  | case3 operator operand ih =>
    cases h with
    | unary hoperand => rw [skeleton, ih hoperand]
  | case4 left operator right ihl ihr =>
    cases h with
    | binary hleft hright => rw [skeleton, ihl hleft, ihr hright]
  | _ =>
    -- Nothing below the other forms is evaluated, and their tokens are the same.
    cases h
    rfl

/-! ## The tables follow the kinds -/

section Tables

variable (operator : Token)

/-- The kind of the operand decides what an operator in front of it gives, up to its kind. -/
theorem applyUnary_kind (v : Value) :
    (applyUnary operator v).map Value.kind = Skeleton.applyUnary operator v.kind := by
  unfold applyUnary Skeleton.applyUnary
  cases operator.kind <;> cases v <;> rfl

/-- The kinds of the operands decide what an operator on numbers gives, if all its results are of
one kind. -/
theorem applyNumeric_kind (result : ValueKind) {operation : Float → Float → Value}
    (hresult : ∀ x y, (operation x y).kind = result) (l r : Value) :
    (applyNumeric operator operation l r).map Value.kind =
      Skeleton.applyNumeric operator result l.kind r.kind := by
  cases l with
  | number x =>
    cases r with
    | number y => exact congrArg Except.ok (hresult x y)
    | _ => rfl
  | _ => cases r <;> rfl

/-- The kinds of the operands decide whether an addition is one of numbers, of strings or a fault.
-/
theorem applyPlus_kind (l r : Value) :
    (applyPlus operator l r).map Value.kind = Skeleton.applyPlus operator l.kind r.kind := by
  cases l <;> cases r <;> rfl

/-- The kinds of the operands decide what any operator between them gives, up to its kind. -/
theorem applyBinary_kind (l r : Value) :
    (applyBinary operator l r).map Value.kind =
      Skeleton.applyBinary operator l.kind r.kind := by
  unfold applyBinary Skeleton.applyBinary
  -- Comparisons of numbers give truth values and arithmetic gives numbers; equality takes any
  -- values.
  cases operator.kind with
  | plus => exact applyPlus_kind operator l r
  | greater | greaterEqual | less | lessEqual =>
    exact applyNumeric_kind operator .boolean (fun _ _ => rfl) l r
  | minus | slash | star => exact applyNumeric_kind operator .number (fun _ _ => rfl) l r
  | _ => rfl

end Tables

/-- A tree has a value of the kind that its skeleton has, or the fault that its skeleton has. -/
theorem eval_skeleton (e : Expr) : e.skeleton.eval = e.eval.map Value.kind := by
  -- A skeleton is evaluated in the order of its tree, so that the first operand with a fault is the
  -- same in both.
  fun_induction eval e with
  | case1 value => exact congrArg Except.ok (Value.kind_ofLiteral value).symm
  | case2 inner ih => exact ih
  | case3 operator operand ih =>
    rw [skeleton, Skeleton.eval, ih]
    cases operand.eval with
    | error f => rfl
    | ok v => exact (applyUnary_kind operator v).symm
  | case4 left operator right ihl ihr =>
    rw [skeleton, Skeleton.eval, ihl, ihr]
    cases left.eval with
    | error f => rfl
    | ok l =>
      cases right.eval with
      | error f => rfl
      | ok r => exact (applyBinary_kind operator l r).symm
  | _ => rfl

/-- Two evaluations that end alike: both with the same fault, or both with a value of one kind. -/
inductive SameOutcome : Except RuntimeFault Value → Except RuntimeFault Value → Prop
  | error (f : RuntimeFault) : SameOutcome (.error f) (.error f)
  | ok {v v' : Value} : v.kind = v'.kind → SameOutcome (.ok v) (.ok v')

/-- Outcomes that are alike by kind are of the same kind, or the same fault. -/
theorem sameOutcome_of_map_eq {r r' : Except RuntimeFault Value}
    (h : r.map Value.kind = r'.map Value.kind) : SameOutcome r r' := by
  cases r with
  | error f =>
    cases r' with
    | error f' =>
      cases h
      exact .error f
    | ok v' => cases h
  | ok v =>
    cases r' with
    | error f' => cases h
    | ok v' => exact .ok (Except.ok.inj h)

/-- The skeleton of any tree predicts its evaluation: the fault with its token and cause, or the
kind of the value. Whatever other contents the literals have, without a change of their kinds, the
evaluation ends alike. -/
theorem eval_determined_by_kinds (e : Expr) :
    e.skeleton.eval = e.eval.map Value.kind ∧ ∀ e', Alike e e' → SameOutcome e.eval e'.eval := by
  refine ⟨eval_skeleton e, fun e' halike => sameOutcome_of_map_eq ?_⟩
  rw [← eval_skeleton e, ← eval_skeleton e', halike.skeleton_eq]

/-- In `1 / 0 + !""` and in `0 / 5 + !"x"` a number, infinite or not, meets a truth value: both fail
at the plus. -/
theorem eval_determined_by_kinds_plus :
    let plus : Token := ⟨.plus, "+", none, 1⟩
    let tree (x y : Float) (s : String) : Expr :=
      .binary (.binary (.literal (.number x)) ⟨.slash, "/", none, 1⟩ (.literal (.number y))) plus
        (.unary ⟨.bang, "!", none, 1⟩ (.literal (.string s)))
    Alike (tree 1 0 "") (tree 0 5 "x") ∧ SameOutcome (tree 1 0 "").eval (tree 0 5 "x").eval ∧
      (tree 1 0 "").eval.map Value.kind = .error ⟨.operandsMustBeNumbersOrStrings, plus⟩ := by
  intro plus tree
  have halike : Alike (tree 1 0 "") (tree 0 5 "x") :=
    .binary (.binary (.literal rfl) (.literal rfl)) (.unary (.literal rfl))
  obtain ⟨hpredicted, hsame⟩ := eval_determined_by_kinds (tree 1 0 "")
  exact ⟨halike, hsame _ halike, hpredicted.symm⟩

end Expr

end LoxCalc
