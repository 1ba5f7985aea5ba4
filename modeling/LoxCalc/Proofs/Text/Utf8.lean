import LoxCalc.Text.Utf8

/-!
# Bytes, character by character

Bytes that decode to a text are the encodings of its characters one after another (`Spells`). An
encoding is one byte below 0x80 or only bytes from 0x80 on, so that the bytes of a line feed and of
a carriage return stand for these characters and occur nowhere else.

The machine reads a character in steps. What a character under way can become is kept in
`Pending.NonAscii`, which every step preserves; a run of steps is then an encoding (`Encodes`).
-/

namespace LoxCalc.Text.Utf8

/-! ## The character under way -/

/-- What the machine's characters under way have in common: their further bytes are from 0x80 on,
and the bits they hold or will get put them beyond ASCII. -/
def Pending.NonAscii (p : Pending) : Prop :=
  0x80 ≤ p.least ∧ (2 ≤ p.bits ∨ (1 ≤ p.owed ∧ (1 ≤ p.bits ∨ 0x90 ≤ p.least)))

/-- A byte is a character of ASCII, or begins one beyond it, or neither. -/
def Start.Fits (b : UInt8) : Start → Prop
  | .whole c => b.toNat < 0x80 ∧ c = Char.ofNat b.toNat
  | .begins p => 0x80 ≤ b.toNat ∧ p.NonAscii
  | .invalid => True

/-- A first byte is read as what it is. -/
theorem start_fits (b : UInt8) : (start b).Fits b := by
  unfold start
  refine iteInduction (fun hascii => ⟨hascii, rfl⟩) fun hascii => ?_
  repeat' refine iteInduction (fun _ => ?_) fun _ => ?_
  all_goals dsimp only [Start.Fits, Pending.NonAscii]
  all_goals omega

/-- A character beyond ASCII does not end a line. -/
theorem ofNat_not_line {n : Nat} (h : 0x80 ≤ n) : Char.ofNat n ≠ '\n' ∧ Char.ofNat n ≠ '\r' := by
  -- A number that is no character is taken for zero, which ends no line.
  have hn : (Char.ofNat n).toNat = n ∨ (Char.ofNat n).toNat = 0 := by
    by_cases hvalid : n.isValidChar
    · exact .inl (congrArg Char.toNat (dif_pos hvalid))
    · exact .inr (congrArg Char.toNat (dif_neg hvalid))
  constructor
  · intro heq
    rw [heq] at hn
    have : '\n'.toNat = 10 := rfl
    omega
  · intro heq
    rw [heq] at hn
    have : '\r'.toNat = 13 := rfl
    omega

/-- A character under way that is read is completed by bytes that are none of ASCII. -/
theorem unitsFrom_pending {p : Pending} (hp : p.NonAscii) {bytes : List UInt8} {c : Char}
    {us : List (Option Char)} (h : unitsFrom (some p) bytes = some c :: us) :
    ∃ tail rest, bytes = tail ++ rest ∧ unitsFrom none rest = us ∧
      (∀ more, unitsFrom (some p) (tail ++ more) = some c :: unitsFrom none more) ∧
      (∀ b ∈ tail, 0x80 ≤ b.toNat) ∧ c ≠ '\n' ∧ c ≠ '\r' := by
  induction bytes generalizing p with
  | nil => simp [unitsFrom] at h
  | cons b bytes ih =>
    obtain ⟨hleast, hbits⟩ := hp
    rw [unitsFrom] at h
    split at h
    · next hrange =>
      have hb : 0x80 ≤ b.toNat := by omega
      cases howed : p.owed with
      | zero =>
        -- The byte is the last one of the character.
        simp only [howed] at h
        obtain ⟨hc, rfl⟩ := List.cons.inj h
        refine ⟨[b], bytes, rfl, rfl, fun more => ?_, by simpa using hb, ?_⟩
        · simp only [List.singleton_append, unitsFrom, if_pos hrange, howed, hc]
        · rw [← Option.some.inj hc]
          exact ofNat_not_line (by omega)
      | succ owed =>
        simp only [howed] at h
        have hnext : Pending.NonAscii { bits := p.bits * 64 + (b.toNat - 0x80), owed } := by
          refine ⟨Nat.le_refl _, .inl ?_⟩
          dsimp only
          omega
        obtain ⟨tail, rest, rfl, hrest, hunits, htail, hc⟩ := ih hnext h
        refine ⟨b :: tail, rest, rfl, hrest, fun more => ?_, by simpa using ⟨hb, htail⟩, hc⟩
        simp only [List.cons_append, unitsFrom, if_pos hrange, howed, hunits]
    · -- The byte does not go on with the character, which is given up.
      cases hstart : start b <;> simp [hstart] at h

/-! ## Texts -/

/-- Bytes that encode a character: whatever follows them, the character is read and then that. They
are one byte of ASCII, which is the character, or none of ASCII. -/
structure Encodes (encoding : List UInt8) (c : Char) : Prop where
  /-- The character is read, and then what follows. -/
  units : ∀ more, unitsFrom none (encoding ++ more) = some c :: unitsFrom none more
  /-- The bytes are one of ASCII, or none. -/
  ascii : (∃ b, encoding = [b] ∧ b.toNat < 0x80 ∧ c = Char.ofNat b.toNat) ∨
    (encoding ≠ [] ∧ (∀ b ∈ encoding, 0x80 ≤ b.toNat) ∧ c ≠ '\n' ∧ c ≠ '\r')

/-- Bytes that encode characters one after another. -/
inductive Spells : List UInt8 → List Char → Prop
  | nil : Spells [] []
  | cons {encoding bytes : List UInt8} {c : Char} {cs : List Char} :
    Encodes encoding c → Spells bytes cs → Spells (encoding ++ bytes) (c :: cs)

/-- A character that is read was encoded. -/
theorem exists_encodes {bytes : List UInt8} {c : Char} {us : List (Option Char)}
    (h : unitsFrom none bytes = some c :: us) :
    ∃ encoding rest, bytes = encoding ++ rest ∧ Encodes encoding c ∧ unitsFrom none rest = us := by
  cases bytes with
  | nil => simp [unitsFrom] at h
  | cons b bytes =>
    have hfits := start_fits b
    rw [unitsFrom] at h
    -- A first byte is a character by itself, or the bytes behind it belong to it, or it is none.
    cases hstart : start b with
    | whole c' =>
      simp only [hstart] at h hfits
      obtain ⟨hc, rfl⟩ := List.cons.inj h
      obtain rfl := Option.some.inj hc
      refine ⟨[b], bytes, rfl, ⟨fun more => ?_, .inl ⟨b, rfl, hfits⟩⟩, rfl⟩
      simp only [List.singleton_append, unitsFrom, hstart]
    | begins p =>
      simp only [hstart] at h hfits
      obtain ⟨hb, hp⟩ := hfits
      obtain ⟨tail, rest, rfl, hrest, hunits, htail, hc⟩ := unitsFrom_pending hp h
      refine ⟨b :: tail, rest, rfl, ⟨fun more => ?_, .inr ⟨by simp, ?_, hc⟩⟩, hrest⟩
      · simp only [List.cons_append, unitsFrom, hstart, hunits]
      · simpa using ⟨hb, htail⟩
    | invalid => simp [hstart] at h

/-- A character under way is read or given up. -/
theorem unitsFrom_some_ne_nil (p : Pending) (bytes : List UInt8) :
    unitsFrom (some p) bytes ≠ [] := by
  induction bytes generalizing p with
  | nil => simp [unitsFrom]
  | cons b bytes ih =>
    rw [unitsFrom]
    split
    · cases howed : p.owed with
      | zero => simp
      | succ owed => exact ih _
    · cases hstart : start b <;> simp

/-- Bytes spell what is read of them, if it is read without a gap. -/
theorem units_eq_iff {bytes : List UInt8} {cs : List Char} :
    unitsFrom none bytes = cs.map some ↔ Spells bytes cs := by
  constructor
  · intro h
    induction cs generalizing bytes with
    | nil =>
      cases bytes with
      | nil => exact .nil
      | cons b bytes =>
        rw [unitsFrom] at h
        cases hstart : start b with
        | begins p => exact absurd (by simpa [hstart] using h) (unitsFrom_some_ne_nil p bytes)
        | _ => simp [hstart] at h
    | cons c cs ih =>
      obtain ⟨encoding, rest, rfl, hencodes, hrest⟩ := exists_encodes h
      exact .cons hencodes (ih hrest)
  · intro h
    induction h with
    | nil => rfl
    | cons hencodes _ ih => rw [hencodes.units, ih, List.map_cons]

/-- A text is there if every unit is a character. -/
theorem mapM_id_eq_some_iff {us : List (Option Char)} {cs : List Char} :
    us.mapM id = some cs ↔ us = cs.map some := by
  induction us generalizing cs with
  | nil => cases cs <;> simp
  | cons u us ih => cases cs <;> simp [List.mapM_cons, Option.bind_eq_some_iff, ih]

/-- A text is decoded from the bytes that spell it, and from no others. -/
theorem decode?_eq_some_iff {bytes : List UInt8} {text : String} :
    decode? bytes = some text ↔ Spells bytes text.toList := by
  rw [← units_eq_iff, decode?, units, Option.map_eq_some_iff]
  constructor
  · rintro ⟨cs, hcs, rfl⟩
    rw [String.toList_ofList]
    exact mapM_id_eq_some_iff.mp hcs
  · intro h
    exact ⟨text.toList, mapM_id_eq_some_iff.mpr h, String.ofList_toList⟩

end LoxCalc.Text.Utf8
