import LoxCalc.Number.Shortest

/-!
# The text of a number

A number is shown by its shortest decimal, without an exponent and without a point when it is whole;
zero keeps its sign. A dump instead marks every number as one: a whole number keeps a zero behind
the point, and magnitudes far from one are in scientific form.
-/

namespace LoxCalc.Number

/-- A text with a minus sign in front if the number is negative. -/
def signed (negative : Bool) (text : List Char) : String :=
  String.ofList (if negative then '-' :: text else text)

/-- The text of a number that a program shows. -/
def text (x : Float) : String :=
  match view x with
  | .undefined => "NaN"
  | .infinite negative => signed negative "inf".toList
  | .finite negative bits => signed negative (shortest bits).positional

/-- Dumps write zero and the magnitudes from `10 ^ (-4)` up to `10 ^ 16` without an exponent. -/
def dumpsPositional (bits : Nat) : Bool :=
  bits == 0 || (Decimal.bits ⟨1, -4⟩ ≤ bits && bits < Decimal.bits ⟨1, 16⟩)

/-- A positional text with a point in it. -/
def withPoint (cs : List Char) : List Char :=
  if cs.contains '.' then cs else cs ++ ['.', '0']

/-- The text of a number in a dump. -/
def dumpText (x : Float) : String :=
  match view x with
  | .undefined => "NaN"
  | .infinite negative => signed negative "inf".toList
  | .finite negative bits =>
    let d := shortest bits
    signed negative (if dumpsPositional bits then withPoint d.positional else d.scientific)

end LoxCalc.Number
