import LoxCalc.Proofs.Unicode.Ascii

/-!
# The characters of tokens

Every token that is no string is printable ASCII (`Lexeme.Taken.isPrintable`), and a string begins
and ends with its quotes. So at both ends of a token there is a boundary to whatever ASCII character
stands there, a carriage return before a line feed apart (`Lexeme.Taken.ascii_ends`).
-/

namespace LoxCalc

/-- Whether a character is a printable one of ASCII, blank included. No such character ends a
line. -/
def isPrintable (c : Char) : Bool :=
  decide (0x20 ≤ c.toNat) && decide (c.toNat ≤ 0x7E)

/-- A character that is not printable is not among printable ones. -/
theorem not_mem_of_isPrintable {cs : List Char} (h : ∀ c ∈ cs, isPrintable c = true) {c : Char}
    (hc : isPrintable c = false) : c ∉ cs := by
  intro hmem
  rw [h c hmem] at hc
  cases hc

/-- A printable character is one of ASCII and no carriage return. -/
theorem isAscii_of_isPrintable {c : Char} (h : isPrintable c = true) :
    Unicode.IsAscii c ∧ c ≠ '\r' := by
  refine ⟨?_, ?_⟩
  · rw [isPrintable, Bool.and_eq_true, decide_eq_true_eq, decide_eq_true_eq] at h
    unfold Unicode.IsAscii
    omega
  · rintro rfl
    exact absurd h (by decide)

namespace Lexeme

open Unicode (Cluster)

/-- ASCII letters and digits are printable. -/
theorem isPrintable_of_isAlphanum {c : Char} (h : c.isAlphanum = true) : isPrintable c = true := by
  have hsplit : c.isAlphanum = (c.isAlpha || c.isDigit) := rfl
  rw [hsplit, Bool.or_eq_true, isAlpha_iff, Char.isDigit_iff_toNat] at h
  simp only [Char.le_def, UInt32.le_iff_toNat_le] at h
  have : c.toNat = c.val.toNat := rfl
  have : 'A'.val.toNat = 65 ∧ 'Z'.val.toNat = 90 := ⟨rfl, rfl⟩
  have : 'a'.val.toNat = 97 ∧ 'z'.val.toNat = 122 := ⟨rfl, rfl⟩
  have : '0'.toNat = 48 ∧ '9'.toNat = 57 := ⟨rfl, rfl⟩
  rw [isPrintable, Bool.and_eq_true, decide_eq_true_eq, decide_eq_true_eq]
  omega

/-- Words are printable. -/
theorem isPrintable_of_isWordPart {parts : List Cluster} (h : ∀ c ∈ parts, isWordPart c = true) :
    ∀ ch ∈ parts.flatten, isPrintable ch = true := by
  intro ch hch
  obtain ⟨c, hc, hmem⟩ := List.mem_flatten.mp hch
  have hpart := h c hc
  rw [isWordPart, Bool.or_eq_true, Bool.and_eq_true, beq_iff_eq] at hpart
  rcases hpart with ⟨-, hall⟩ | rfl
  · exact isPrintable_of_isAlphanum (List.all_eq_true.mp hall ch hmem)
  · rw [List.mem_singleton.mp hmem]
    decide

/-- A token that is no string is printable. -/
theorem Taken.isPrintable {l : Lexeme} {rest : List Cluster} (h : Taken l rest) {kind : TokenKind}
    {literal : Option Literal} (hl : l.label = .token kind literal) (hkind : kind ≠ .string) :
    ∀ ch ∈ l.body.flatten, isPrintable ch = true := by
  have hsymbols : ∀ p ∈ symbols, p.1.flatten.all LoxCalc.isPrintable = true := by decide
  have hform := h.tokenForm hl
  generalize l.body = body at hform
  -- Only a string has what the source has; all other forms are spelled with ASCII.
  cases hform with
  | symbol hmem => exact List.all_eq_true.mp (hsymbols _ hmem)
  | word _ hparts => exact isPrintable_of_isWordPart hparts
  | number hdigits _ =>
    intro ch hch
    obtain ⟨c, hc, hmem⟩ := List.mem_flatten.mp hch
    rcases hdigits c hc with hdigit | rfl
    · have hparts : ∀ d ∈ [c], isWordPart d = true :=
        List.forall_mem_singleton.mpr (isWordPart_of_isDigit hdigit)
      exact isPrintable_of_isWordPart hparts ch (by simpa using hmem)
    · rw [List.mem_singleton.mp hmem]
      decide
  | string _ => exact absurd rfl hkind

/-- A token begins and ends with ASCII characters, and does not end with a carriage return. -/
theorem Taken.ascii_ends {l : Lexeme} {rest : List Cluster} (h : Taken l rest) {kind : TokenKind}
    {literal : Option Literal} (hl : l.label = .token kind literal) :
    (∀ c ∈ l.body.flatten.head?, Unicode.IsAscii c) ∧
      ∀ c ∈ l.body.flatten.getLast?, Unicode.IsAscii c ∧ c ≠ '\r' := by
  -- A string is enclosed in quotes, whatever it holds.
  by_cases hkind : kind = .string
  · obtain ⟨inner, hbody, -⟩ := (h.token_cases hl).2 hkind
    have hflat : l.body.flatten = '"' :: (inner.flatten ++ ['"']) := by simp [hbody, quote]
    have hquote : Unicode.IsAscii '"' ∧ '"' ≠ '\r' := by decide
    rw [hflat]
    refine ⟨fun c hc => ?_, fun c hc => ?_⟩
    · obtain rfl : '"' = c := by simpa using hc
      exact hquote.1
    · rw [← List.cons_append, List.getLast?_concat, Option.mem_some_iff] at hc
      exact hc ▸ hquote
  · have hprintable := h.isPrintable hl hkind
    refine ⟨fun c hc => ?_, fun c hc => ?_⟩
    · exact (isAscii_of_isPrintable (hprintable c (List.mem_of_mem_head? hc))).1
    · exact isAscii_of_isPrintable (hprintable c (List.mem_of_getLast? hc))

end Lexeme

/-- A scanned token was taken from the source. -/
theorem Scan.exists_taken_of_mem_tokens {source : String} {t : Token}
    (ht : t ∈ (ofSource source).tokens) :
    ∃ l rest, Lexeme.Taken l rest ∧ l.label = .token t.kind t.literal ∧ l.text = t.lexeme := by
  have hmem : (t.kind, t.literal, t.lexeme) ∈
      (Lexeme.all (Unicode.Cluster.segment source.toList)).filterMap Lexeme.token? := by
    rw [← tokens_ofLexemes 1]
    exact List.mem_map_of_mem ht
  obtain ⟨l, hl, htoken⟩ := List.mem_filterMap.mp hmem
  obtain ⟨rest, htaken⟩ := Lexeme.taken_of_mem_all hl
  exact ⟨l, rest, htaken, Lexeme.token?_eq_some_iff.mp htoken⟩

/-- The lexeme of a scanned token that is no string is printable. -/
theorem Scan.isPrintable_of_mem_tokens {source : String} {t : Token}
    (ht : t ∈ (ofSource source).tokens) (hkind : t.kind ≠ .string) :
    ∀ c ∈ t.lexeme.toList, isPrintable c = true := by
  obtain ⟨l, rest, htaken, hlabel, htext⟩ := exists_taken_of_mem_tokens ht
  rw [← htext, Lexeme.text, String.toList_ofList]
  exact htaken.isPrintable hlabel hkind

end LoxCalc
