import LoxCalc.Token

/-!
# Expressions

The tree of an expression. Operators, names and other words keep their tokens, so that a fault can
name its place. The grammar builds literals, groupings, unary and binary operations; the other forms
belong to the language and can be built and shown, but not evaluated.
-/

namespace LoxCalc

/-- An expression of the language. -/
inductive Expr where
  /-- A value given to a variable. -/
  | assign (name : Token) (value : Expr)
  /-- An operation on two operands. -/
  | binary (left : Expr) (operator : Token) (right : Expr)
  /-- A call, with the parenthesis that closes it. -/
  | call (callee : Expr) (paren : Token) (arguments : List Expr)
  /-- A property of an object. -/
  | get (object : Expr) (name : Token)
  /-- A parenthesized expression. -/
  | grouping (inner : Expr)
  /-- A literal. -/
  | literal (value : Literal)
  /-- A conjunction or disjunction. -/
  | logical (left : Expr) (operator : Token) (right : Expr)
  /-- A value given to a property of an object. -/
  | set (object : Expr) (name : Token) (value : Expr)
  /-- A method of the superclass. -/
  | super (keyword : Token) (method : Token)
  /-- The object a method is called on. -/
  | this (keyword : Token)
  /-- An operation on one operand. -/
  | unary (operator : Token) (operand : Expr)
  /-- A variable. -/
  | variable (name : Token)

end LoxCalc
