import LoxCalc.Expr

/-!
# The text of an expression tree

A tree is shown in prefix form: every operation in parentheses, its name first and its operands
behind it, all separated by single spaces, as in `(* (- 123) (group 45.67))`.
-/

namespace LoxCalc.Expr

mutual

/-- The text of a tree. -/
def render : Expr → String
  | .assign name value => "(= " ++ name.lexeme ++ " " ++ value.render ++ ")"
  | .binary left operator right =>
    "(" ++ operator.lexeme ++ " " ++ left.render ++ " " ++ right.render ++ ")"
  | .call callee _ arguments => "(call " ++ callee.render ++ renderArguments arguments ++ ")"
  | .get object name => "(. " ++ name.lexeme ++ " " ++ object.render ++ ")"
  | .grouping inner => "(group " ++ inner.render ++ ")"
  | .literal value => value.text
  | .logical left operator right =>
    "(" ++ operator.lexeme ++ " " ++ left.render ++ " " ++ right.render ++ ")"
  | .set object name value =>
    "(= " ++ name.lexeme ++ " " ++ object.render ++ " " ++ value.render ++ ")"
  | .super _ method => "(super " ++ method.lexeme ++ ")"
  | .this _ => "this"
  | .unary operator operand => "(" ++ operator.lexeme ++ " " ++ operand.render ++ ")"
  | .variable name => name.lexeme

/-- The texts of arguments, each with a space in front. -/
def renderArguments : List Expr → String
  | [] => ""
  | argument :: rest => " " ++ argument.render ++ renderArguments rest

end

end LoxCalc.Expr
