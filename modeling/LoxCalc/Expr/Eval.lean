import LoxCalc.Expr
import LoxCalc.Fault
import LoxCalc.Value

/-!
# Evaluating expressions

Operands are evaluated from left to right and then the operation is applied, so that the first fault
in that order is the one that shows. A fault carries the token of its operation.
-/

namespace LoxCalc.Expr

/-- Applies a prefix operator. -/
def applyUnary (operator : Token) (operand : Value) : Except RuntimeFault Value :=
  match operator.kind, operand with
  | .bang, v => .ok (.boolean !v.isTruthy)
  | .minus, .number x => .ok (.number (-x))
  | .minus, _ => .error ⟨.operandMustBeNumber, operator⟩
  | _, _ => .error ⟨.invalidOperator, operator⟩

/-- Applies an operation that takes two numbers. -/
def applyNumeric (operator : Token) (operation : Float → Float → Value) (left right : Value) :
    Except RuntimeFault Value :=
  match left, right with
  | .number x, .number y => .ok (operation x y)
  | _, _ => .error ⟨.operandsMustBeNumbers, operator⟩

/-- Adds two numbers or joins two strings. -/
def applyPlus (operator : Token) (left right : Value) : Except RuntimeFault Value :=
  match left, right with
  | .number x, .number y => .ok (.number (x + y))
  | .string s, .string t => .ok (.string (s ++ t))
  | _, _ => .error ⟨.operandsMustBeNumbersOrStrings, operator⟩

/-- Applies a binary operator. -/
def applyBinary (operator : Token) (left right : Value) : Except RuntimeFault Value :=
  match operator.kind with
  | .equalEqual => .ok (.boolean (left.equals right))
  | .bangEqual => .ok (.boolean !(left.equals right))
  | .plus => applyPlus operator left right
  | .greater => applyNumeric operator (fun x y => .boolean (decide (x > y))) left right
  | .greaterEqual => applyNumeric operator (fun x y => .boolean (decide (x ≥ y))) left right
  | .less => applyNumeric operator (fun x y => .boolean (decide (x < y))) left right
  | .lessEqual => applyNumeric operator (fun x y => .boolean (decide (x ≤ y))) left right
  | .minus => applyNumeric operator (fun x y => .number (x - y)) left right
  | .slash => applyNumeric operator (fun x y => .number (x / y)) left right
  | .star => applyNumeric operator (fun x y => .number (x * y)) left right
  | _ => .error ⟨.invalidOperator, operator⟩

/-- The value of an expression. -/
def eval : Expr → Except RuntimeFault Value
  | .literal value => .ok (.ofLiteral value)
  | .grouping inner => inner.eval
  | .unary operator operand => do
    let v ← operand.eval
    applyUnary operator v
  | .binary left operator right => do
    let l ← left.eval
    let r ← right.eval
    applyBinary operator l r
  | .assign name _ | .get _ name | .set _ name _ | .variable name =>
    .error ⟨.unsupportedExpression, name⟩
  | .call _ paren _ => .error ⟨.unsupportedExpression, paren⟩
  | .logical _ operator _ => .error ⟨.unsupportedExpression, operator⟩
  | .super keyword _ | .this keyword => .error ⟨.unsupportedExpression, keyword⟩

end LoxCalc.Expr
