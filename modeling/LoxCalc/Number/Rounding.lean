/-!
# Rounding a ratio to binary64

Numbers are binary64 values. The non-negative ones are ordered like their bit patterns, and the
pattern of a finite one is its significand plus `2 ^ 52` times the binade above the lowest it lies
in, as `magnitudeBits` builds it: a significand that rounds up to `2 ^ 53` carries into the next
binade by itself, and a value past the last finite one is cut to infinity.
-/

namespace LoxCalc.Number

/-- The natural number nearest to `num / den`, a half going to the even neighbour. -/
def roundHalfEven (num den : Nat) : Nat :=
  let quotient := num / den
  let twice := 2 * (num % den)
  if twice < den ∨ (twice = den ∧ quotient % 2 = 0) then quotient else quotient + 1

/-- The bit pattern of positive infinity. -/
def infinityBits : Nat := 0x7FF0000000000000

/-- The bit pattern of the value nearest to `num / den`, a half going to the even pattern. The
ratio is measured in units of the least positive value, `2 ^ (-1074)`. -/
def magnitudeBits (num den : Nat) : Nat :=
  let units := num * Nat.pow 2 1074
  let binade := (units / den).log2 - 52
  min (binade * Nat.pow 2 52 + roundHalfEven units (den * Nat.pow 2 binade)) infinityBits

/-- The significand of the finite value with the given pattern. -/
def significand (bits : Nat) : Nat :=
  if bits < Nat.pow 2 52 then bits else Nat.pow 2 52 + bits % Nat.pow 2 52

/-- The binade of the finite value with the given pattern: the value is
`significand * 2 ^ binade * 2 ^ (-1074)`. -/
def binade (bits : Nat) : Nat :=
  bits / Nat.pow 2 52 - 1

/-- The value with the given bit pattern. -/
def ofPattern (bits : Nat) : Float :=
  Float.ofBits (UInt64.ofNat bits)

/-- What a number is: not a number, infinite, or a sign and the pattern of a finite magnitude. -/
inductive View where
  | undefined
  | infinite (negative : Bool)
  | finite (negative : Bool) (bits : Nat)

/-- What the number `x` is. -/
def view (x : Float) : View :=
  let pattern := x.toBits.toNat
  let negative := decide (Nat.pow 2 63 ≤ pattern)
  let bits := pattern % Nat.pow 2 63
  if bits < infinityBits then .finite negative bits
  else if bits = infinityBits then .infinite negative
  else .undefined

end LoxCalc.Number
