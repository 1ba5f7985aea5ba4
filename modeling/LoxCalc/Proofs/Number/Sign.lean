import LoxCalc.Proofs.Number.ReadBack
import Mathlib

/-!
# The sign of a number

A finite number is one without a sign or the negation of one (`exists_of_isFinite`), and its text is
the positional decimal of its magnitude, with a minus sign in the second case. A pattern that has
the sign bit as well stands for the negation of what it stands for without it: the mantissa and the
exponent are read off the lower bits only (`unpack_eq_neg`).
-/

namespace LoxCalc.Number

open Float.Model (Format)
open Float.Model.UnpackedFloat

/-! ## The fields of a pattern -/

section Fields

variable (b : BitVec Format.binary64.numBits)

/-- The mantissa is what the low 52 bits hold. -/
theorem toNat_unpackMantissa : (unpackMantissa b).toNat = b.toNat % 2 ^ 52 := by
  simp [unpackMantissa]

/-- The exponent is what the next eleven bits hold. -/
theorem toNat_unpackExponent : (unpackExponent b).toNat = b.toNat / 2 ^ 52 % 2 ^ 11 := by
  simp [unpackExponent, Nat.shiftRight_eq_div_pow]

/-- The sign is the highest bit. -/
theorem toNat_unpackSign : (unpackSign b).toNat = b.toNat / 2 ^ 63 % 2 := by
  simp [unpackSign, Nat.shiftRight_eq_div_pow]

end Fields

/-- The sign bit in front of a pattern negates what the pattern stands for. -/
theorem unpack_eq_neg {b b' : BitVec Format.binary64.numBits} (hb' : b'.toNat < 2 ^ 63)
    (hb : b.toNat = 2 ^ 63 + b'.toNat) :
    unpack Format.binary64 b = (unpack Format.binary64 b').neg := by
  have hmantissa : unpackMantissa b = unpackMantissa b' := by
    apply BitVec.eq_of_toNat_eq
    rw [toNat_unpackMantissa, toNat_unpackMantissa]
    omega
  have hexponent : unpackExponent b = unpackExponent b' := by
    apply BitVec.eq_of_toNat_eq
    rw [toNat_unpackExponent, toNat_unpackExponent]
    omega
  have hnegative : unpackSign b = 1#1 := by
    apply BitVec.eq_of_toNat_eq
    rw [toNat_unpackSign, BitVec.toNat_ofNat]
    omega
  have hpositive : unpackSign b' = 0#1 := by
    apply BitVec.eq_of_toNat_eq
    rw [toNat_unpackSign, BitVec.toNat_ofNat]
    omega
  have hsign : Sign.ofBitVec (unpackSign b) = -Sign.ofBitVec (unpackSign b') := by
    rw [hnegative, hpositive]
    rfl
  -- Every form that a pattern can stand for keeps its sign in one place.
  simp only [unpack, hmantissa, hexponent, hsign]
  split_ifs <;> rfl

/-- The sign bit in front of the pattern of a number is that of its negation. -/
theorem eq_neg_of_toBits {x y : Float} (hy : y.toBits.toNat < 2 ^ 63)
    (hx : x.toBits.toNat = 2 ^ 63 + y.toBits.toNat) : x = -y := by
  have hunpack : x.toModel.unpack = y.toModel.unpack.neg := unpack_eq_neg hy hx
  -- A number is what its own pattern stands for, so that packing restores it.
  calc x = Float.ofBits x.toBits := (Float.ofBits_toBits x).symm
    _ = Float.ofModel (Float.Model.pack x.toModel.unpack) := rfl
    _ = -y := by rw [hunpack]; rfl

/-- The exponent of a finite value is not all ones. -/
theorem toNat_unpackExponent_of_isFinite {b : BitVec Format.binary64.numBits}
    (h : (unpack Format.binary64 b).isFinite = true) : (unpackExponent b).toNat ≠ 2047 := by
  intro hones
  have hexponent : unpackExponent b = -1#_ := BitVec.eq_of_toNat_eq hones
  unfold unpack at h
  simp only [hexponent, if_true] at h
  split_ifs at h <;> cases h

/-! ## Finite numbers -/

/-- A finite number shows as a sign and a magnitude. -/
theorem exists_view_of_isFinite {x : Float} (h : x.isFinite = true) :
    ∃ negative bits, view x = .finite negative bits := by
  have hexponent := toNat_unpackExponent_of_isFinite (b := x.toBits.toBitVec) h
  rw [toNat_unpackExponent] at hexponent
  have hinfinity : infinityBits = 2047 * 2 ^ 52 := rfl
  have hpattern : x.toBits.toBitVec.toNat = x.toBits.toNat := rfl
  have hlt : x.toBits.toNat % Nat.pow 2 63 < infinityBits := by
    have hpattern_lt := x.toBits.toNat_lt
    rw [Nat.pow_eq]
    omega
  exact ⟨_, _, if_pos hlt⟩

/-- A number that shows as a sign and a magnitude is that magnitude or its negation. -/
theorem eq_of_view_eq_finite {x : Float} {negative : Bool} {bits : Nat}
    (h : view x = .finite negative bits) :
    bits < infinityBits ∧ x = if negative then -ofPattern bits else ofPattern bits := by
  simp only [view] at h
  split_ifs at h with hlt
  obtain ⟨rfl, rfl⟩ := View.finite.inj h
  refine ⟨hlt, ?_⟩
  have hmagnitude : (ofPattern (x.toBits.toNat % Nat.pow 2 63)).toBits.toNat =
      x.toBits.toNat % Nat.pow 2 63 := by
    rw [toBits_ofPattern hlt.le]
    exact UInt64.toNat_ofNat_of_lt (hlt.trans (by decide))
  have hpattern_lt := x.toBits.toNat_lt
  rw [Nat.pow_eq] at hmagnitude ⊢
  -- The pattern is that of the magnitude, with the sign bit in front of it or without.
  by_cases hsign : 2 ^ 63 ≤ x.toBits.toNat
  · rw [if_pos (decide_eq_true hsign)]
    exact eq_neg_of_toBits (by omega) (by omega)
  · rw [decide_eq_false hsign, if_neg Bool.false_ne_true, ← Float.toBits_inj,
      ← UInt64.toNat_inj]
    omega

/-- A finite number is one without a sign or the negation of one, with the text of its magnitude and
a minus sign in the second case. -/
theorem exists_of_isFinite {x : Float} (h : x.isFinite = true) :
    ∃ bits < infinityBits,
      x = ofPattern bits ∧ text x = String.ofList (shortest bits).positional ∨
        x = -ofPattern bits ∧ text x = String.ofList ('-' :: (shortest bits).positional) := by
  obtain ⟨negative, bits, hview⟩ := exists_view_of_isFinite h
  obtain ⟨hlt, hx⟩ := eq_of_view_eq_finite hview
  have htext : text x = signed negative (shortest bits).positional := by
    rw [text, hview]
  refine ⟨bits, hlt, ?_⟩
  cases negative with
  | false => exact .inl ⟨hx, htext⟩
  | true => exact .inr ⟨hx, htext⟩

end LoxCalc.Number
