import LoxCalc.Number.Decimal

/-!
# The shortest decimal of a number

The shortest decimal of a finite positive value is, among the decimals that read back as the value,
the one with the fewest digits, and of those the nearest to it; an exact half goes up. The search
tries ever finer grids of powers of ten. If a point of a grid reads back at all then one of the
value's two neighbours on that grid does, so that two tests per grid suffice, and seventeen digits
always suffice.
-/

namespace LoxCalc.Number

/-- The exponent of the leading decimal digit of `num / den`, the greatest whose power of ten is not
above the ratio. Below one it is minus the number of digits of the greatest whole number below the
inverse. -/
def leadingExponent (num den : Nat) : Int :=
  if den ≤ num then (Nat.toDigits 10 (num / den)).length - 1
  else -(Nat.toDigits 10 ((den - 1) / num)).length

/-- The better of the two neighbours of `num / den` among the multiples of `10 ^ exponent`, if one
of them reads back as the value with pattern `bits`. -/
def gridNeighbour? (num den bits : Nat) (exponent : Int) : Option Decimal :=
  let top := num * Nat.pow 10 (-exponent).toNat
  let unit := den * Nat.pow 10 exponent.toNat
  let below : Decimal := ⟨top / unit, exponent⟩
  let above : Decimal := ⟨top / unit + 1, exponent⟩
  if below.bits = bits then
    if above.bits = bits ∧ unit ≤ 2 * (top % unit) then some above else some below
  else if above.bits = bits then some above
  else none

/-- The value with pattern `bits`, exactly. -/
def exactDecimal (bits : Nat) : Decimal :=
  ⟨significand bits * Nat.pow 2 (binade bits) * Nat.pow 5 1074, -1074⟩

/-- The shortest decimal that reads back as the finite value with pattern `bits`. -/
def shortest (bits : Nat) : Decimal :=
  if bits = 0 then ⟨0, 0⟩
  else
    let num := significand bits * Nat.pow 2 (binade bits)
    let den := Nat.pow 2 1074
    let coarsest := leadingExponent num den + 1
    let grids := (List.range 18).map fun (k : Nat) => coarsest - k
    (grids.findSome? (gridNeighbour? num den bits)).getD (exactDecimal bits)

end LoxCalc.Number
