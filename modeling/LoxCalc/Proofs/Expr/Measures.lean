import LoxCalc.Expr

/-!
# Measures of a tree

`foldMax` measures a tree from its leaves to its root: a node is combined with the greatest measure
among its parts. `height` counts every node, so that it is the number of nodes on a longest path
from the root to a leaf, and `nesting` counts groupings and prefix operations only, the most of them
that enclose each other.
-/

namespace LoxCalc.Expr

mutual

/-- Measures a tree: `measure` combines a node with the greatest measure among its parts. -/
def foldMax (measure : Expr → Nat → Nat) : Expr → Nat
  | .assign name value => measure (.assign name value) (value.foldMax measure)
  | .binary left operator right =>
    measure (.binary left operator right) (max (left.foldMax measure) (right.foldMax measure))
  | .call callee paren arguments =>
    measure (.call callee paren arguments)
      (max (callee.foldMax measure) (foldMaxList measure arguments))
  | .get object name => measure (.get object name) (object.foldMax measure)
  | .grouping inner => measure (.grouping inner) (inner.foldMax measure)
  | .literal value => measure (.literal value) 0
  | .logical left operator right =>
    measure (.logical left operator right) (max (left.foldMax measure) (right.foldMax measure))
  | .set object name value =>
    measure (.set object name value) (max (object.foldMax measure) (value.foldMax measure))
  | .super keyword method => measure (.super keyword method) 0
  | .this keyword => measure (.this keyword) 0
  | .unary operator operand => measure (.unary operator operand) (operand.foldMax measure)
  | .variable name => measure (.variable name) 0

/-- The greatest measure among several trees. -/
def foldMaxList (measure : Expr → Nat → Nat) : List Expr → Nat
  | [] => 0
  | e :: rest => max (e.foldMax measure) (foldMaxList measure rest)

end

/-- Whether a node is a grouping or a prefix operation. -/
def nests : Expr → Bool
  | .grouping _ | .unary _ _ => true
  | _ => false

/-- The most groupings and prefix operations on one path from the root to a leaf. -/
def nesting (e : Expr) : Nat :=
  e.foldMax fun node inner => inner + node.nests.toNat

/-- The number of nodes on a longest path from the root to a leaf. -/
def height (e : Expr) : Nat :=
  e.foldMax fun _ inner => inner + 1

/-! ## The forms that the grammar builds -/

/-- A literal does not nest. -/
@[simp]
theorem nesting_literal (value : Literal) : (literal value).nesting = 0 := rfl

/-- Parentheses nest. -/
@[simp]
theorem nesting_grouping (inner : Expr) : (grouping inner).nesting = inner.nesting + 1 := rfl

/-- An operator in front of an operand nests. -/
@[simp]
theorem nesting_unary (operator : Token) (operand : Expr) :
    (unary operator operand).nesting = operand.nesting + 1 := rfl

/-- An operator between two operands does not nest. -/
@[simp]
theorem nesting_binary (left : Expr) (operator : Token) (right : Expr) :
    (binary left operator right).nesting = max left.nesting right.nesting := rfl

/-- A literal is one node. -/
@[simp]
theorem height_literal (value : Literal) : (literal value).height = 1 := rfl

/-- Parentheses are a node above what they enclose. -/
@[simp]
theorem height_grouping (inner : Expr) : (grouping inner).height = inner.height + 1 := rfl

/-- An operator in front of an operand is a node above it. -/
@[simp]
theorem height_unary (operator : Token) (operand : Expr) :
    (unary operator operand).height = operand.height + 1 := rfl

/-- An operator between two operands is a node above both. -/
@[simp]
theorem height_binary (left : Expr) (operator : Token) (right : Expr) :
    (binary left operator right).height = max left.height right.height + 1 := rfl

/-- Every tree has a node. -/
theorem height_pos (e : Expr) : 0 < e.height := by
  cases e <;> exact Nat.succ_pos _

end LoxCalc.Expr
