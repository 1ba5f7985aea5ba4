import LoxCalc.Proofs.Lexeme.Exact
import LoxCalc.Proofs.Scan.Lines
import LoxCalc.Proofs.Unicode.Boundary

/-!
# Cluster boundaries between ASCII characters

Two ASCII characters never belong to one cluster, unless they are the two that end a line
(`Cluster.joins_eq_false_of_ascii`). What the scanner does not report begins with an ASCII character
(`Lexeme.Taken.beginsAscii`), so that an ASCII character in front of a source without lexical faults
is a cluster by itself and leaves the clusters of the source as they are.
-/

namespace LoxCalc

namespace Unicode

/-- A character of ASCII. -/
def IsAscii (c : Char) : Prop :=
  c.toNat < 0x80

/-- Whether a character is ASCII can be computed. -/
instance (c : Char) : Decidable (IsAscii c) :=
  inferInstanceAs (Decidable (c.toNat < 0x80))

/-- The classes of ASCII characters. -/
theorem BreakClass.ofChar_of_ascii {c : Char} (h : IsAscii c) :
    (ofChar c).isControl = true ∨ ofChar c = .other := by
  -- Line feed, carriage return and the other controls are tested for first, and then all else below
  -- U+0080.
  unfold ofChar
  split
  · exact .inl rfl
  · split
    · exact .inl rfl
    · split
      · exact .inl rfl
      · next hcontrol =>
        right
        rw [if_pos]
        unfold IsAscii at h
        omega

namespace Cluster

open BreakClass (ofChar)

/-- There is a boundary between two ASCII characters that are not the end of a line. -/
theorem joins_eq_false_of_ascii {x y : Char} (hx : IsAscii x) (hy : IsAscii y)
    (hline : ¬(x = '\r' ∧ y = '\n')) (earlier : List BreakClass) :
    joins (ofChar x :: earlier) (ofChar y) = false := by
  by_cases hcontrol : (ofChar x).isControl = true ∨ (ofChar y).isControl = true
  · apply joins_eq_false hcontrol
    rwa [BreakClass.ofChar_eq_carriageReturn_iff, BreakClass.ofChar_eq_lineFeed_iff]
  · rw [not_or] at hcontrol
    rw [(BreakClass.ofChar_of_ascii hx).resolve_left hcontrol.1,
      (BreakClass.ofChar_of_ascii hy).resolve_left hcontrol.2]
    rfl

/-- There is a boundary between texts where two ASCII characters meet, the first no carriage
return. -/
theorem segment_append_of_ascii {a b : List Char}
    (ha : ∀ x ∈ a.getLast?, IsAscii x ∧ x ≠ '\r') (hb : ∀ y ∈ b.head?, IsAscii y) :
    segment (a ++ b) = segment a ++ segment b := by
  cases b with
  | nil => simp [segment]
  | cons y b =>
    refine segment_append (fun x hx => ?_) b
    obtain ⟨hascii, hcr⟩ := ha x hx
    exact joins_eq_false_of_ascii hascii (hb y rfl) fun hline => hcr hline.1

/-- An ASCII character, no carriage return, in front of what begins with one is a cluster by
itself. -/
theorem segment_cons_of_ascii {x : Char} (hx : IsAscii x ∧ x ≠ '\r') {rest : List Char}
    (hrest : ∀ y ∈ rest.head?, IsAscii y) : segment (x :: rest) = [x] :: segment rest := by
  have hlast : ∀ z ∈ [x].getLast?, IsAscii z ∧ z ≠ '\r' := by simpa using hx
  have hsingle : segment [x] = [[x]] := rfl
  rw [← List.singleton_append, segment_append_of_ascii hlast hrest, hsingle,
    List.singleton_append]

/-- ASCII characters without a carriage return are a cluster each. -/
theorem segment_of_ascii {cs : List Char} (h : ∀ c ∈ cs, IsAscii c ∧ c ≠ '\r') :
    segment cs = cs.map fun c => [c] := by
  induction cs with
  | nil => rfl
  | cons c cs ih =>
    obtain ⟨hc, hcs⟩ := List.forall_mem_cons.mp h
    have hhead : ∀ y ∈ cs.head?, IsAscii y := fun y hy => (hcs y (List.mem_of_mem_head? hy)).1
    rw [segment_cons_of_ascii hc hhead, ih hcs, List.map_cons]

end Cluster

end Unicode

namespace Lexeme

open Unicode (Cluster IsAscii)

/-- A cluster that begins with an ASCII character. -/
def BeginsAscii : Cluster → Prop
  | [] => False
  | ch :: _ => IsAscii ch

/-- Whether a cluster begins so can be computed. -/
instance : DecidablePred BeginsAscii
  | [] => inferInstanceAs (Decidable False)
  | ch :: _ => inferInstanceAs (Decidable (IsAscii ch))

/-- Parts of words begin with ASCII characters. -/
theorem beginsAscii_of_isWordPart {c : Cluster} (h : isWordPart c = true) : BeginsAscii c := by
  rw [isWordPart, Bool.or_eq_true, Bool.and_eq_true, beq_iff_eq] at h
  rcases h with ⟨hne, hparts⟩ | rfl
  · cases c with
    | nil => simp at hne
    | cons ch tail =>
      have hpart := List.all_eq_true.mp hparts ch List.mem_cons_self
      rw [Char.isAlphanum, Bool.or_eq_true, isAlpha_iff, Char.isDigit_iff_toNat] at hpart
      simp only [Char.le_def, UInt32.le_iff_toNat_le] at hpart
      have : ch.toNat = ch.val.toNat := rfl
      have : 'Z'.val.toNat = 90 := rfl
      have : 'z'.val.toNat = 122 := rfl
      have : '9'.toNat = 57 := rfl
      unfold BeginsAscii IsAscii
      omega
  · decide

/-- What is no fault begins with an ASCII character. -/
theorem Taken.beginsAscii {l : Lexeme} {rest : List Cluster} (h : Taken l rest)
    (hl : ∀ cause, l.label ≠ .fault cause) : ∃ c ∈ l.body.head?, BeginsAscii c := by
  have hpunctuation : ∀ p ∈ Lexeme.punctuation, BeginsAscii p.1 := by decide
  have hequalizable : ∀ p ∈ equalizable, BeginsAscii p.1 := by decide
  have hskipped : ∀ c ∈ skipped, BeginsAscii c := by decide
  have hdigit {digits : List Cluster} (hne : digits ≠ [])
      (hdigits : ∀ c ∈ digits, isDigit c = true) (more : List Cluster) :
      ∃ c ∈ (digits ++ more).head?, BeginsAscii c := by
    cases digits with
    | nil => exact absurd rfl hne
    | cons c digits =>
      have hpart := isWordPart_of_isDigit (hdigits c List.mem_cons_self)
      exact ⟨c, rfl, beginsAscii_of_isWordPart hpart⟩
  -- All that the scanner knows begins with ASCII; only what it does not expect need not.
  cases h with
  | punctuation hlookup => exact ⟨_, rfl, hpunctuation _ (mem_of_lookup_eq_some hlookup)⟩
  | short hlookup _ | long hlookup =>
    exact ⟨_, rfl, hequalizable _ (mem_of_lookup_eq_some hlookup)⟩
  | slash _ | comment _ _ => exact ⟨['/'], rfl, by decide⟩
  | blank hc => exact ⟨_, rfl, hskipped _ ((mem_skipped_iff _).mpr hc)⟩
  | string _ => exact ⟨quote, rfl, by decide⟩
  | whole hne hdigits _ _ _ => simpa using hdigit hne hdigits []
  | fraction hne hdigits _ _ _ _ => exact hdigit hne hdigits _
  | word hletter _ _ => exact ⟨_, rfl, beginsAscii_of_isWordPart (isWordPart_of_isLetter hletter)⟩
  | unterminated _ | unexpected => exact absurd rfl (hl _)

end Lexeme

end LoxCalc
