import LoxCalc.Number.Rounding

/-!
# Decimals

A decimal is a coefficient times a power of ten. `Decimal.bits` is the binary64 value nearest to it
and `Decimal.ofLexeme` reads one off the text of a number literal. It is written positionally, with
at least one digit before the point, or in scientific form, with exactly one. `Number.ofText?` is
the number that a text spells.
-/

namespace LoxCalc.Number

/-- The number `coefficient * 10 ^ exponent`. -/
structure Decimal where
  coefficient : Nat
  exponent : Int
  deriving DecidableEq, Repr

namespace Decimal

/-- The decimal's numerator. -/
def num (d : Decimal) : Nat :=
  d.coefficient * Nat.pow 10 d.exponent.toNat

/-- The decimal's denominator. -/
def den (d : Decimal) : Nat :=
  Nat.pow 10 (-d.exponent).toNat

/-- The bit pattern of the value nearest to the decimal. -/
def bits (d : Decimal) : Nat :=
  magnitudeBits d.num d.den

/-- The value nearest to the decimal. -/
def toFloat (d : Decimal) : Float :=
  ofPattern d.bits

/-- The decimal that digits, optionally with a point among them, denote. -/
def ofLexeme (cs : List Char) : Decimal :=
  let whole := cs.takeWhile (· != '.')
  let fraction := (cs.dropWhile (· != '.')).drop 1
  { coefficient := Nat.ofDigitChars 10 (whole ++ fraction) 0
    exponent := -fraction.length }

/-- Whether a text spells a decimal: at least one digit, and at most one point among the digits. -/
def isLexeme (cs : List Char) : Bool :=
  let digits := cs.filter (· != '.')
  !digits.isEmpty && digits.all Char.isDigit && decide (cs.count '.' ≤ 1)

/-- The digits of the coefficient. -/
def digits (d : Decimal) : List Char :=
  Nat.toDigits 10 d.coefficient

/-- The decimal without an exponent. -/
def positional (d : Decimal) : List Char :=
  match d.exponent with
  | .ofNat zeros => d.digits ++ List.replicate zeros '0'
  | .negSucc n =>
    let places := n + 1
    let padded := List.replicate (places + 1 - d.digits.length) '0' ++ d.digits
    padded.take (padded.length - places) ++ '.' :: padded.drop (padded.length - places)

/-- The decimal with one digit before the point, no point if there is no other digit, and the
exponent behind the letter e. -/
def scientific (d : Decimal) : List Char :=
  let fraction := d.digits.drop 1
  let exponent := d.exponent + fraction.length
  d.digits.take 1 ++ (if fraction.isEmpty then [] else '.' :: fraction)
    ++ 'e' :: (if exponent < 0 then ['-'] else []) ++ Nat.toDigits 10 exponent.natAbs

end Decimal

/-- The number that a text spells without a sign or an exponent, if it spells one. -/
def ofText? (cs : List Char) : Option Float :=
  if Decimal.isLexeme cs then some (Decimal.ofLexeme cs).toFloat else none

end LoxCalc.Number
