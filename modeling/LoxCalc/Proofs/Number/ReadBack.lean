import LoxCalc.Number.Text
import LoxCalc.Proofs.Lexeme.Step
import Mathlib

/-!
# Numbers read back

The decimal that a finite magnitude is shown as reads back as the magnitude (`bits_shortest`): the
search keeps only points of a grid that do, and the exact value, which it falls back to, does by
itself. Written positionally a decimal spells a number, and what is read off it is the same ratio
(`ofText?_positional`). So the texts of numbers without a sign tell the numbers apart
(`text_ofPattern_inj`), infinity included, whose text is the only one with letters in it.
-/

namespace LoxCalc.Number

/-! ## Exact ratios -/

/-- A whole number of units is not rounded. -/
theorem roundHalfEven_mul (n : Nat) {den : Nat} (hden : 0 < den) :
    roundHalfEven (n * den) den = n := by
  have htwice : 2 * (n * den % den) < den := by
    rwa [Nat.mul_mod_left, Nat.mul_zero]
  unfold roundHalfEven
  rw [if_pos (.inl htwice), Nat.mul_div_cancel n hden]

/-- A pattern is its binade and its significand. -/
theorem binade_add_significand (bits : Nat) :
    binade bits * Nat.pow 2 52 + significand bits = bits := by
  unfold binade significand
  simp only [Nat.pow_eq]
  split <;> omega

/-- A power of two shifts the leading bit. -/
theorem log2_mul_two_pow {m : Nat} (hm : m ≠ 0) (k : Nat) :
    (m * Nat.pow 2 k).log2 = m.log2 + k := by
  simp only [Nat.pow_eq]
  induction k with
  | zero => rw [Nat.pow_zero, Nat.mul_one, Nat.add_zero]
  | succ k ih =>
    have hne : m * 2 ^ k ≠ 0 := Nat.mul_ne_zero hm (Nat.two_pow_pos k).ne'
    rw [Nat.pow_succ, ← Nat.mul_assoc, Nat.mul_comm, Nat.log2_two_mul hne, ih, Nat.add_assoc]

/-- A finite value is rounded in its own binade. -/
theorem log2_significand (bits : Nat) :
    (significand bits * Nat.pow 2 (binade bits)).log2 - 52 = binade bits := by
  by_cases hsmall : bits < 2 ^ 52
  · -- A subnormal value lies in the lowest binade, and so does its significand.
    have hsignificand : significand bits = bits := if_pos hsmall
    have hbinade : binade bits = 0 := by
      unfold binade
      rw [Nat.pow_eq]
      omega
    have hone : Nat.pow 2 0 = 1 := rfl
    rw [hsignificand, hbinade, hone, Nat.mul_one]
    by_cases hzero : bits = 0
    · rw [hzero, Nat.log2_zero]
    · have hlog := (Nat.log2_lt hzero).mpr hsmall
      omega
  · -- A normal significand has its leading bit in one place, and the binade shifts it.
    have hsignificand : significand bits = 2 ^ 52 + bits % 2 ^ 52 := if_neg hsmall
    have hne : 2 ^ 52 + bits % 2 ^ 52 ≠ 0 := by omega
    have hlog : (2 ^ 52 + bits % 2 ^ 52).log2 = 52 := (Nat.log2_eq_iff hne).mpr (by omega)
    rw [hsignificand, log2_mul_two_pow hne, hlog, Nat.add_sub_cancel_left]

/-- A ratio that is exactly the value of a pattern has that pattern. -/
theorem magnitudeBits_eq {num den bits : Nat} (hden : 0 < den) (hbits : bits ≤ infinityBits)
    (h : num * Nat.pow 2 1074 = significand bits * Nat.pow 2 (binade bits) * den) :
    magnitudeBits num den = bits := by
  have hpos : 0 < den * Nat.pow 2 (binade bits) := Nat.mul_pos hden (Nat.two_pow_pos _)
  have hunits : significand bits * Nat.pow 2 (binade bits) * den =
      significand bits * (den * Nat.pow 2 (binade bits)) := by
    rw [Nat.mul_assoc, Nat.mul_comm (Nat.pow 2 (binade bits))]
  unfold magnitudeBits
  simp only [h, Nat.mul_div_cancel _ hden, log2_significand]
  rw [hunits, roundHalfEven_mul _ hpos, binade_add_significand, Nat.min_eq_left hbits]

/-- No ratio is above infinity. -/
theorem magnitudeBits_le (num den : Nat) : magnitudeBits num den ≤ infinityBits :=
  Nat.min_le_right _ _

/-! ## The shortest decimal -/

/-- The search keeps a point of a grid only if it reads back. -/
theorem bits_of_gridNeighbour? {num den bits : Nat} {exponent : Int} {d : Decimal}
    (h : gridNeighbour? num den bits exponent = some d) : d.bits = bits := by
  simp only [gridNeighbour?] at h
  split_ifs at h with hbelow hboth habove
  · rw [← Option.some.inj h]
    exact hboth.1
  · rw [← Option.some.inj h]
    exact hbelow
  · rw [← Option.some.inj h]
    exact habove

/-- The exact decimal of a finite magnitude reads back as the magnitude. -/
theorem bits_exactDecimal {bits : Nat} (h : bits ≤ infinityBits) :
    (exactDecimal bits).bits = bits := by
  -- The number of places is a variable, since its powers are too large to be evaluated.
  obtain ⟨places, hplaces⟩ : ∃ places : Nat, places = 1074 := ⟨_, rfl⟩
  have hexponent : (-1074 : Int) = -(places : Int) := by omega
  have hnum (n : Nat) : Decimal.num ⟨n, -(places : Int)⟩ = n := by simp [Decimal.num]
  have hden (n : Nat) : Decimal.den ⟨n, -(places : Int)⟩ = Nat.pow 10 places := by
    simp [Decimal.den]
  have hpos : 0 < Nat.pow 10 places := Nat.pow_pos (by decide)
  have hscale (n : Nat) : n * Nat.pow 5 places * Nat.pow 2 places = n * Nat.pow 10 places := by
    rw [Nat.mul_assoc]
    exact congrArg (n * ·) (Nat.mul_pow 5 2 places).symm
  rw [exactDecimal, hexponent, ← hplaces, Decimal.bits, hnum, hden]
  apply magnitudeBits_eq hpos h
  rw [← hplaces, hscale]

/-- The shortest decimal of a finite magnitude reads back as the magnitude. -/
theorem bits_shortest {bits : Nat} (h : bits ≤ infinityBits) : (shortest bits).bits = bits := by
  unfold shortest
  split
  · next hzero =>
    have hnum : Decimal.num ⟨0, 0⟩ = 0 := rfl
    have hsignificand : significand 0 = 0 := rfl
    rw [hzero] at h ⊢
    apply magnitudeBits_eq Nat.one_pos h
    simp only [hnum, hsignificand, Nat.zero_mul]
  · simp only
    -- Either a grid has a point that reads back, or the exact decimal is taken.
    cases hfind : List.findSome? _ _ with
    | none => exact bits_exactDecimal h
    | some d =>
      obtain ⟨exponent, -, hd⟩ := List.exists_of_findSome?_eq_some hfind
      exact bits_of_gridNeighbour? hd

/-! ## Positional texts -/

namespace Decimal

/-- No digit is a point. -/
theorem ne_point_of_isDigit {cs : List Char} (h : ∀ c ∈ cs, c.isDigit = true) :
    ∀ c ∈ cs, (c != '.') = true := by
  intro c hc
  rw [bne_iff_ne]
  rintro rfl
  exact absurd (h _ hc) (by decide)

/-- A text without a point is read as its digits. -/
theorem ofLexeme_of_digits {cs : List Char} (h : ∀ c ∈ cs, c.isDigit = true) :
    ofLexeme cs = ⟨Nat.ofDigitChars 10 cs 0, 0⟩ := by
  have htake : cs.takeWhile (· != '.') = cs := by simpa using ne_point_of_isDigit h
  have hdrop : cs.dropWhile (· != '.') = [] := by simpa using ne_point_of_isDigit h
  rw [ofLexeme, htake, hdrop, List.drop_nil, List.append_nil]
  rfl

/-- A text with a point is read as its digits, with those behind the point as places. -/
theorem ofLexeme_of_point {whole : List Char} (h : ∀ c ∈ whole, c.isDigit = true)
    (fraction : List Char) : ofLexeme (whole ++ '.' :: fraction) =
      ⟨Nat.ofDigitChars 10 (whole ++ fraction) 0, -(fraction.length : Int)⟩ := by
  have htake : ('.' :: fraction).takeWhile (· != '.') = [] := rfl
  have hdrop : ('.' :: fraction).dropWhile (· != '.') = '.' :: fraction := rfl
  have hpoint := ne_point_of_isDigit h
  rw [ofLexeme, List.takeWhile_append_of_pos hpoint, List.dropWhile_append_of_pos hpoint, htake,
    hdrop, List.append_nil, List.drop_one, List.tail_cons]

/-- A positional text is the digits with zeros behind them, or has a point somewhere between the
digits, with zeros in front of them. -/
theorem positional_cases (d : Decimal) :
    (∃ zeros : Nat, d.exponent = zeros ∧
      d.positional = d.digits ++ List.replicate zeros '0') ∨
    ∃ zeros whole fraction, d.exponent = -(List.length fraction : Int) ∧ whole ≠ [] ∧
      fraction ≠ [] ∧ whole ++ fraction = List.replicate zeros '0' ++ d.digits ∧
      d.positional = whole ++ '.' :: fraction := by
  obtain ⟨coefficient, exponent⟩ := d
  cases exponent with
  | ofNat zeros => exact .inl ⟨zeros, rfl, rfl⟩
  | negSucc n =>
    -- The digits are padded to more than the places, so that one is left before the point.
    right
    refine ⟨_, _, _, ?_, ?_, ?_, List.take_append_drop _ _, rfl⟩
    · simp only [List.length_drop, List.length_append, List.length_replicate]
      omega
    · rw [← List.length_pos_iff, List.length_take]
      simp only [List.length_append, List.length_replicate]
      omega
    · rw [← List.length_pos_iff, List.length_drop]
      simp only [List.length_append, List.length_replicate]
      omega

/-- The digits of a decimal are digits. -/
theorem isDigit_of_mem_digits (d : Decimal) : ∀ c ∈ d.digits, c.isDigit = true :=
  fun _ => Nat.isDigit_of_mem_toDigits (by decide) (by decide)

/-- Digits with zeros on either side of them are digits. -/
theorem isDigit_of_mem_padded (d : Decimal) (zeros : Nat) :
    (∀ c ∈ d.digits ++ List.replicate zeros '0', c.isDigit = true) ∧
      ∀ c ∈ List.replicate zeros '0' ++ d.digits, c.isDigit = true := by
  have hzeros : ∀ c ∈ List.replicate zeros '0', c.isDigit = true := by
    intro c hc
    rw [List.eq_of_mem_replicate hc]
    rfl
  have hdigits := d.isDigit_of_mem_digits
  exact ⟨List.forall_mem_append.mpr ⟨hdigits, hzeros⟩, List.forall_mem_append.mpr ⟨hzeros, hdigits⟩⟩

/-- The digits of a decimal spell its coefficient. -/
theorem ofDigitChars_digits (d : Decimal) : Nat.ofDigitChars 10 d.digits 0 = d.coefficient :=
  Nat.ofDigitChars_toDigits (by decide) (by decide)

/-- A positional text spells a decimal, and what is read off it is the same ratio. -/
theorem ofLexeme_positional (d : Decimal) : isLexeme d.positional = true ∧
    (ofLexeme d.positional).num = d.num ∧ (ofLexeme d.positional).den = d.den := by
  -- Either there are only zeros behind the digits, or some digits are behind the point; then the
  -- zeros in front do not count.
  rcases d.positional_cases with ⟨zeros, hexponent, htext⟩ |
    ⟨zeros, whole, fraction, hexponent, hne, -, hall, htext⟩
  · have hdigits := (d.isDigit_of_mem_padded zeros).1
    have hne : d.digits ++ List.replicate zeros '0' ≠ [] :=
      List.append_ne_nil_of_left_ne_nil Nat.toDigits_ne_nil _
    rw [htext]
    refine ⟨(Lexeme.isLexeme_of_digits hne hdigits (List.forall_mem_nil _)).1, ?_⟩
    rw [ofLexeme_of_digits hdigits, Nat.ofDigitChars_append, Nat.ofDigitChars_replicate_zero,
      ofDigitChars_digits]
    constructor
    · simp [num, hexponent, Nat.mul_comm]
    · simp [den, hexponent]
  · have hdigits := (d.isDigit_of_mem_padded zeros).2
    have hread : Nat.ofDigitChars 10 (whole ++ fraction) 0 = d.coefficient := by
      rw [hall, Nat.ofDigitChars_append, Nat.ofDigitChars_replicate_zero, Nat.mul_zero,
        ofDigitChars_digits]
    rw [← hall, List.forall_mem_append] at hdigits
    rw [htext]
    refine ⟨(Lexeme.isLexeme_of_digits hne hdigits.1 hdigits.2).2, ?_⟩
    rw [ofLexeme_of_point hdigits.1, hread, ← hexponent]
    exact ⟨rfl, rfl⟩

end Decimal

/-- The text of a finite magnitude spells it. -/
theorem ofText?_positional {bits : Nat} (h : bits ≤ infinityBits) :
    ofText? (shortest bits).positional = some (ofPattern bits) := by
  obtain ⟨hlexeme, hnum, hden⟩ := (shortest bits).ofLexeme_positional
  rw [ofText?, if_pos hlexeme, Decimal.toFloat, Decimal.bits, hnum, hden]
  exact congrArg (fun bits => some (ofPattern bits)) (bits_shortest h)

/-! ## Patterns -/

open Float.Model UnpackedFloat in
/-- A pattern up to infinity is that of its value. Only patterns above it are not numbers, which all
stand for the same value. -/
theorem toBits_ofPattern {bits : Nat} (h : bits ≤ infinityBits) :
    (ofPattern bits).toBits = UInt64.ofNat bits := by
  have hinfinity : infinityBits = 2047 * 2 ^ 52 := rfl
  have hpattern : (UInt64.ofNat bits).toBitVec.toNat = bits :=
    UInt64.toNat_ofNat_of_lt (Nat.lt_of_le_of_lt h (by decide))
  -- The pattern is that of a number unless its exponent is the greatest and its mantissa is not
  -- zero, which is above infinity.
  have hvalid : Format.binary64.Valid (UInt64.ofNat bits).toBitVec := by
    constructor
    intro hones hnonzero
    have hexponent : bits >>> 52 % 2048 = 2047 := by
      simpa [unpackExponent, hpattern] using congrArg BitVec.toNat hones
    have hmantissa : bits % 2 ^ 52 ≠ 0 := by
      intro hzero
      exact hnonzero (BitVec.eq_of_toNat_eq (by simpa [unpackMantissa, hpattern] using hzero))
    omega
  have hread := Float.ofBits_toBits ⟨⟨UInt64.ofNat bits, hvalid⟩⟩
  have hbits : Float.toBits ⟨⟨UInt64.ofNat bits, hvalid⟩⟩ = UInt64.ofNat bits := rfl
  rw [hbits] at hread
  rw [ofPattern, hread]
  rfl

/-- A pattern without a sign is seen as finite, or as infinity, without one. -/
theorem view_ofPattern {bits : Nat} (h : bits ≤ infinityBits) :
    view (ofPattern bits) =
      if bits < infinityBits then .finite false bits else .infinite false := by
  have hpattern : (UInt64.ofNat bits).toNat = bits :=
    UInt64.toNat_ofNat_of_lt (Nat.lt_of_le_of_lt h (by decide))
  have hsign : bits < Nat.pow 2 63 := Nat.lt_of_le_of_lt h (by decide)
  have hnegative : decide (Nat.pow 2 63 ≤ bits) = false :=
    decide_eq_false (Nat.not_le_of_lt hsign)
  simp only [view, toBits_ofPattern h, hpattern, Nat.mod_eq_of_lt hsign, hnegative]
  split
  · rfl
  · next hlt => rw [if_pos (Nat.le_antisymm h (Nat.le_of_not_lt hlt))]

/-! ## Texts of numbers without a sign -/

/-- The text of a finite magnitude spells it, and there is one text for infinity. -/
theorem text_ofPattern_cases {bits : Nat} (h : bits ≤ infinityBits) :
    ofText? (text (ofPattern bits)).toList = some (ofPattern bits) ∨
      bits = infinityBits ∧ text (ofPattern bits) = "inf" := by
  by_cases hlt : bits < infinityBits
  · left
    have htext : text (ofPattern bits) = String.ofList (shortest bits).positional := by
      rw [text, view_ofPattern h, if_pos hlt]
      rfl
    rw [htext, String.toList_ofList]
    exact ofText?_positional h
  · right
    have hbits := Nat.le_antisymm h (Nat.le_of_not_lt hlt)
    rw [text, view_ofPattern h, if_neg hlt]
    exact ⟨hbits, rfl⟩

/-- Numbers without a sign are told apart by their texts. -/
theorem text_ofPattern_inj {bits bits' : Nat} (h : bits ≤ infinityBits) (h' : bits' ≤ infinityBits)
    (htext : text (ofPattern bits) = text (ofPattern bits')) :
    ofPattern bits = ofPattern bits' := by
  have hinf : ofText? "inf".toList = none := by decide
  -- Either text reads back as its number, or is that of infinity, which does not read back.
  rcases text_ofPattern_cases h with hread | ⟨hbits, hshown⟩ <;>
    rcases text_ofPattern_cases h' with hread' | ⟨hbits', hshown'⟩
  · rw [htext, hread'] at hread
    exact (Option.some.inj hread).symm
  · rw [htext, hshown', hinf] at hread
    cases hread
  · rw [← htext, hshown, hinf] at hread'
    cases hread'
  · rw [hbits, hbits']

/-- A text that spells a number is made of digits and points. -/
theorem isDigit_of_ofText? {cs : List Char} {x : Float} (h : ofText? cs = some x) :
    cs ≠ [] ∧ ∀ c ∈ cs, c.isDigit = true ∨ c = '.' := by
  unfold ofText? at h
  split at h
  · next hlexeme =>
    simp only [Decimal.isLexeme, Bool.and_eq_true, Bool.not_eq_true'] at hlexeme
    obtain ⟨⟨hne, hdigits⟩, -⟩ := hlexeme
    refine ⟨?_, fun c hc => ?_⟩
    · rintro rfl
      cases hne
    · by_cases hpoint : c = '.'
      · exact .inr hpoint
      · left
        refine List.all_eq_true.mp hdigits c (List.mem_filter.mpr ⟨hc, ?_⟩)
        exact bne_iff_ne.mpr hpoint
  · cases h

/-- The numbers that texts spell have no sign. -/
theorem exists_ofPattern_of_ofText? {cs : List Char} {x : Float} (h : ofText? cs = some x) :
    ∃ bits ≤ infinityBits, x = ofPattern bits := by
  unfold ofText? at h
  split at h
  · exact ⟨_, magnitudeBits_le _ _, (Option.some.inj h).symm⟩
  · cases h

end LoxCalc.Number
