import LoxCalc.Proofs.Text.Utf8
import LoxCalc.Text.Lines
import Mathlib.Data.List.Forall2

/-!
# Which line a character is on

A character that ends no line itself is on the line whose index is the number of line feeds before
it (`exists_linesFrom`). The lines of bytes are the lines of the text that the bytes decode to, one
by one (`decode?_byteLines`), so that lines can be counted in a file as well as in its text
(`onLine_of_toList_eq`).
-/

namespace LoxCalc.Text

section Index

variable {α : Type} [DecidableEq α] {lf cr : α}

/-- The last of the symbols `upto` is on the given line: what stands behind the last line feed
before it is how the line begins. -/
def HoldsLast (lf : α) (line upto : List α) : Prop :=
  ∃ earlier part, upto = earlier ++ part ∧ part ≠ [] ∧ lf ∉ part ∧
    (earlier = [] ∨ earlier.getLast? = some lf) ∧ part <+: line

/-- What is taken off the end of a line is in front of any other symbol, in the reversed line. -/
theorem dropReturn_append {c : α} (hc : c ≠ cr) (more current : List α) :
    ∃ kept, dropReturn cr (more ++ c :: current) = kept ++ c :: current := by
  cases more with
  | nil => exact ⟨[], by simp [dropReturn, hc]⟩
  | cons d more =>
    rw [List.cons_append, dropReturn]
    split
    · exact ⟨more, rfl⟩
    · exact ⟨d :: more, rfl⟩

/-- A line that has begun with symbols of which the last is no carriage return begins with them. -/
theorem linesFrom_eq_cons (lf : α) {c : α} (hc : c ≠ cr) (more current rest : List α) :
    ∃ line later, linesFrom lf cr (more ++ c :: current) rest = line :: later ∧
      (c :: current).reverse <+: line := by
  -- The line that has begun grows until it ends, so it is arbitrary in the induction.
  induction rest generalizing more with
  | nil =>
    refine ⟨(more ++ c :: current).reverse, [], by simp [linesFrom], ?_⟩
    rw [List.reverse_append]
    exact List.prefix_append _ _
  | cons d rest ih =>
    rw [linesFrom]
    split
    · obtain ⟨kept, hkept⟩ := dropReturn_append hc more current
      refine ⟨_, _, rfl, ?_⟩
      rw [hkept, List.reverse_append]
      exact List.prefix_append _ _
    · exact ih (d :: more)

/-- A symbol that ends no line is on the line with the number of line feeds before it, also when a
line has begun already. -/
theorem exists_linesFrom {last : α} (hlf : last ≠ lf) (hcr : last ≠ cr) (upto rest current : List α)
    (hcurrent : lf ∉ current) :
    ∃ line, (linesFrom lf cr current (upto ++ last :: rest))[upto.count lf]? = some line ∧
      HoldsLast lf line (current.reverse ++ upto ++ [last]) := by
  induction upto generalizing current with
  | nil =>
    obtain ⟨line, later, hlines, hbegins⟩ := linesFrom_eq_cons lf hcr [] current rest
    refine ⟨line, ?_, [], _, rfl, by simp, ?_, .inl rfl, by simpa using hbegins⟩
    · simp only [List.nil_append, linesFrom, if_neg hlf, List.count_nil] at hlines ⊢
      rw [hlines, List.getElem?_cons_zero]
    · simpa [hcurrent] using hlf.symm
  | cons c upto ih =>
    by_cases hc : c = lf
    · -- The line ends, and the count begins again behind it.
      subst hc
      obtain ⟨line, hline, earlier, part, hupto, hne, hpart, hearlier, hbegins⟩ := ih [] (by simp)
      refine ⟨line, by simpa [linesFrom] using hline, current.reverse ++ c :: earlier, part, ?_,
        hne, hpart, .inr ?_, hbegins⟩
      · rw [List.append_assoc, List.cons_append, List.append_assoc, List.cons_append, ← hupto]
        simp
      · rcases hearlier with rfl | hlast
        · simp
        · simp [List.getLast?_cons, hlast]
    · obtain ⟨line, hline, hlast⟩ := ih (c :: current) (by simpa [hcurrent] using Ne.symm hc)
      refine ⟨line, by simpa [linesFrom, hc] using hline, by simpa using hlast⟩

/-- Symbols that end no line belong to the line that has begun. -/
theorem linesFrom_append_of_not_mem {symbols : List α} (h : lf ∉ symbols) (current rest : List α) :
    linesFrom lf cr current (symbols ++ rest) =
      linesFrom lf cr (symbols.reverse ++ current) rest := by
  induction symbols generalizing current with
  | nil => rfl
  | cons c symbols ih =>
    obtain ⟨hc, hsymbols⟩ : c ≠ lf ∧ lf ∉ symbols := by simpa [eq_comm] using h
    rw [List.cons_append, linesFrom, if_neg hc, ih hsymbols]
    simp

end Index

/-! ## Lines of bytes -/

namespace Utf8

/-- The byte of a line feed encodes a line feed, that of a carriage return a carriage return, and
neither is in the encoding of another character. -/
theorem Encodes.line_cases {encoding : List UInt8} {c : Char} (h : Encodes encoding c) :
    (c = '\n' ∧ encoding = [0x0A]) ∨ (c = '\r' ∧ encoding = [0x0D]) ∨
      (c ≠ '\n' ∧ c ≠ '\r' ∧ encoding ≠ [] ∧ 0x0A ∉ encoding ∧ 0x0D ∉ encoding) := by
  -- A character of ASCII is one byte, and none of the bytes of others is ASCII.
  rcases h.ascii with ⟨b, rfl, hb, rfl⟩ | ⟨hne, hbytes, hc⟩
  · have hchar : ∀ n < 0x80, n ≠ 10 → n ≠ 13 →
        Char.ofNat n ≠ '\n' ∧ Char.ofNat n ≠ '\r' := by decide
    by_cases hlf : b = 0x0A
    · exact .inl ⟨by rw [hlf]; rfl, by rw [hlf]⟩
    · by_cases hcr : b = 0x0D
      · exact .inr (.inl ⟨by rw [hcr]; rfl, by rw [hcr]⟩)
      · have hnlf : b.toNat ≠ 10 := fun h => hlf (UInt8.toNat_inj.mp h)
        have hncr : b.toNat ≠ 13 := fun h => hcr (UInt8.toNat_inj.mp h)
        obtain ⟨h₁, h₂⟩ := hchar b.toNat hb hnlf hncr
        exact .inr (.inr ⟨h₁, h₂, by simp, by simpa using Ne.symm hlf, by simpa using Ne.symm hcr⟩)
  · refine .inr (.inr ⟨hc.1, hc.2, hne, ?_, ?_⟩)
    · exact fun hmem => absurd (hbytes _ hmem) (by decide)
    · exact fun hmem => absurd (hbytes _ hmem) (by decide)

/-- Two spellings together spell both texts. -/
theorem Spells.append {bytes bytes' : List UInt8} {cs cs' : List Char} (h : Spells bytes cs)
    (h' : Spells bytes' cs') : Spells (bytes ++ bytes') (cs ++ cs') := by
  induction h with
  | nil => exact h'
  | cons hencodes _ ih =>
    rw [List.append_assoc]
    exact .cons hencodes ih

/-- An encoding spells its character. -/
theorem Encodes.spells {encoding : List UInt8} {c : Char} (h : Encodes encoding c) :
    Spells encoding [c] := by
  have := Spells.cons h .nil
  rwa [List.append_nil] at this

/-- Only no bytes spell no text. -/
theorem Spells.eq_nil_iff {bytes : List UInt8} {cs : List Char} (h : Spells bytes cs) :
    bytes = [] ↔ cs = [] := by
  cases h with
  | nil => simp
  | cons hencodes _ =>
    rcases hencodes.line_cases with ⟨-, rfl⟩ | ⟨-, rfl⟩ | ⟨-, -, hne, -⟩
    · simp
    · simp
    · simp [hne]

/-- Bytes that spell a text with a line feed hold its byte. -/
theorem Spells.lineFeed_mem {bytes : List UInt8} {cs : List Char} (h : Spells bytes cs)
    (hmem : '\n' ∈ cs) : 0x0A ∈ bytes := by
  induction h with
  | nil => cases hmem
  | cons hencodes _ ih =>
    rcases List.mem_cons.mp hmem with rfl | hmem
    · rcases hencodes.line_cases with ⟨-, rfl⟩ | ⟨hcr, -⟩ | ⟨hlf, -⟩
      · exact List.mem_cons_self
      · exact absurd hcr (by decide)
      · exact absurd rfl hlf
    · exact List.mem_append_right _ (ih hmem)

/-- Bytes that spell a text end in the encoding of its last character. -/
theorem Spells.exists_last {bytes : List UInt8} {cs : List Char} {c : Char}
    (h : Spells bytes (cs ++ [c])) :
    ∃ front encoding, bytes = front ++ encoding ∧ Spells front cs ∧ Encodes encoding c := by
  induction cs generalizing bytes with
  | nil =>
    cases h with
    | cons hencodes hnil =>
      cases hnil
      exact ⟨[], _, by simp, .nil, hencodes⟩
  | cons d cs ih =>
    cases h with
    | cons hencodes hrest =>
      obtain ⟨front, encoding, rfl, hfront, hlast⟩ := ih hrest
      exact ⟨_, encoding, (List.append_assoc _ _ _).symm, .cons hencodes hfront, hlast⟩

/-- Dropping a final carriage return from bytes drops it from what they spell. -/
theorem Spells.dropReturn {current : List UInt8} {text : List Char}
    (h : Spells current.reverse text.reverse) :
    Spells (dropReturn 0x0D current).reverse (dropReturn '\r' text).reverse := by
  cases text with
  | nil =>
    obtain rfl : current = [] := by simpa using h.eq_nil_iff
    exact .nil
  | cons c text =>
    rw [List.reverse_cons] at h
    obtain ⟨front, encoding, heq, hfront, hencodes⟩ := h.exists_last
    obtain rfl : current = encoding.reverse ++ front.reverse := by
      rw [← List.reverse_append, ← heq, List.reverse_reverse]
    -- Bytes and characters both end with a carriage return, or neither does.
    rcases hencodes.line_cases with ⟨rfl, rfl⟩ | ⟨rfl, rfl⟩ | ⟨-, hcr, hne, -, hreturn⟩
    · simpa [Text.dropReturn] using hfront.append hencodes.spells
    · simpa [Text.dropReturn] using hfront
    · obtain ⟨b, rest, hrev⟩ := List.exists_cons_of_ne_nil (List.reverse_ne_nil_iff.mpr hne)
      have hb : b ≠ 0x0D := by
        rintro rfl
        exact hreturn (List.mem_reverse.mp (hrev ▸ List.mem_cons_self))
      rw [hrev, List.cons_append, Text.dropReturn, if_neg hb, ← List.cons_append, ← hrev,
        Text.dropReturn, if_neg hcr]
      simpa using hfront.append hencodes.spells

/-- The lines of bytes spell the lines of the text that the bytes spell, also when a line has begun
already. -/
theorem linesFrom_spells {bytes current : List UInt8} {cs text : List Char} (h : Spells bytes cs)
    (hcurrent : Spells current.reverse text.reverse) :
    List.Forall₂ Spells (linesFrom 0x0A 0x0D current bytes) (linesFrom '\n' '\r' text cs) := by
  induction h generalizing current text with
  | nil =>
    have hempty : current = [] ↔ text = [] := by simpa using hcurrent.eq_nil_iff
    by_cases htext : text = []
    · obtain rfl := hempty.mpr htext
      subst htext
      exact .nil
    · simpa [linesFrom, hempty, htext] using hcurrent
  | @cons encoding bytes c cs hencodes hrest ih =>
    have hnext : Spells (encoding.reverse ++ current).reverse (c :: text).reverse := by
      simpa using hcurrent.append hencodes.spells
    -- A line feed ends a line in both, and any other character ends none in either.
    rcases hencodes.line_cases with ⟨rfl, rfl⟩ | ⟨rfl, rfl⟩ | ⟨hlf, -, -, hbyte, -⟩
    · simp only [List.singleton_append, linesFrom, if_true]
      exact .cons hcurrent.dropReturn (ih .nil)
    · rw [linesFrom_append_of_not_mem (by decide), linesFrom, if_neg (by decide)]
      exact ih hnext
    · rw [linesFrom_append_of_not_mem hbyte, linesFrom, if_neg hlf]
      exact ih hnext

end Utf8

/-- The lines of bytes decode to the lines of the text that the bytes decode to. -/
theorem decode?_byteLines {bytes : List UInt8} {text : String}
    (h : Utf8.decode? bytes = some text) :
    List.Forall₂ (Utf8.decode? · = some ·) (byteLines bytes) (lines text) := by
  have hlines : List.Forall₂ Utf8.Spells (byteLines bytes) (linesFrom '\n' '\r' [] text.toList) :=
    Utf8.linesFrom_spells (Utf8.decode?_eq_some_iff.mp h) .nil
  rw [lines, List.forall₂_map_right_iff]
  refine hlines.imp fun lineBytes line hline => ?_
  rwa [Utf8.decode?_eq_some_iff, String.toList_ofList]

/-- The last of the characters `upto` of a text is on the line with the given number, counted from
one, also in any file of the text. -/
def OnLine (text : String) (number : Nat) (upto : List Char) : Prop :=
  ∃ line, (line, number) ∈ (lines text).zipIdx 1 ∧ HoldsLast '\n' line.toList upto ∧
    ∀ bytes, Utf8.decode? bytes = some text →
      ∃ lineBytes, (lineBytes, number) ∈ (byteLines bytes).zipIdx 1 ∧
        Utf8.decode? lineBytes = some line

/-- A character that ends no line is on the line after as many as there are line feeds before it. -/
theorem onLine_of_toList_eq {text : String} {upto rest : List Char} {last : Char}
    (htext : text.toList = upto ++ last :: rest) (hlf : last ≠ '\n') (hcr : last ≠ '\r') :
    OnLine text (1 + upto.count '\n') (upto ++ [last]) := by
  obtain ⟨line, hline, hlast⟩ := exists_linesFrom hlf hcr upto rest [] (by simp)
  have hget : (lines text)[upto.count '\n']? = some (String.ofList line) := by
    rw [lines, List.getElem?_map, htext, hline, Option.map_some]
  have hnumber : 1 + upto.count '\n' - 1 = upto.count '\n' := by omega
  refine ⟨String.ofList line, ?_, by simpa using hlast, fun bytes hbytes => ?_⟩
  · rw [List.mk_mem_zipIdx_iff_le_and_getElem?_sub, hnumber]
    exact ⟨Nat.le_add_right _ _, hget⟩
  · -- The lines of the bytes are those of the text, one for one.
    have hlines := decode?_byteLines hbytes
    obtain ⟨hindex, hspelled⟩ := List.getElem?_eq_some_iff.mp hget
    have hindex' : upto.count '\n' < (byteLines bytes).length := by
      rw [hlines.length_eq]
      exact hindex
    refine ⟨(byteLines bytes)[upto.count '\n'], ?_, ?_⟩
    · rw [List.mk_mem_zipIdx_iff_le_and_getElem?_sub, hnumber]
      exact ⟨Nat.le_add_right _ _, List.getElem?_eq_getElem hindex'⟩
    · rw [← hspelled]
      exact hlines.get hindex' hindex

end LoxCalc.Text
