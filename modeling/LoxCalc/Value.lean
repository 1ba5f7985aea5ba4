import LoxCalc.Token

/-!
# Values

What expressions evaluate to. Values of one kind are equal when their contents are, by the equality
of numbers for numbers, and values of different kinds are never equal.
-/

namespace LoxCalc

/-- A value of the language. -/
inductive Value where
  | string (s : String)
  | number (x : Float)
  | boolean (b : Bool)
  | nil
  deriving DecidableEq

namespace Value

/-- The value of a literal. -/
def ofLiteral : Literal → Value
  | .string s => .string s
  | .number x => .number x
  | .true => .boolean true
  | .false => .boolean false
  | .nil => .nil

/-- Whether a value counts as true: all do but `nil` and `false`. -/
def isTruthy : Value → Bool
  | .nil => false
  | .boolean b => b
  | _ => true

/-- The equality of the language. A number that is undefined differs from itself, and the two zeros
are equal. -/
def equals : Value → Value → Bool
  | .string a, .string b => a == b
  | .number a, .number b => a == b
  | .boolean a, .boolean b => a == b
  | .nil, .nil => true
  | _, _ => false

/-- The text of a value. -/
def text : Value → String
  | .string s => s
  | .number x => Number.text x
  | .boolean true => "true"
  | .boolean false => "false"
  | .nil => "nil"

end Value

end LoxCalc
