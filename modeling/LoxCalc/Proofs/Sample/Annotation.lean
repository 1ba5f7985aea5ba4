import LoxCalc.Proofs.Sample.Comment
import LoxCalc.Proofs.Text.Unlines

/-!
# What the annotations of a sample can ask for

In a sample without carriage returns every expected text stays on one line, and every expected error
is a line number with the word Error behind it (`Expectations.Sound`). This holds of what one line
expects (`Expectation.sound_of_ofLine?`), and so of what all lines read so far expect
(`Expectations.Sound.readFrom`).

An expected error may be the bare word (`Pattern.IsBare`). This alone tells it from an error that a
program shows, which has something behind the word (`Pattern.IsError.isShown_iff`).
-/

namespace LoxCalc.Sample

namespace Pattern

open Unicode (isDecimalDigit)

/-! ## Texts of one line -/

/-- The characters have no line end among them. -/
def IsLine (cs : List Char) : Prop :=
  ∀ c ∈ cs, c ≠ '\n' ∧ c ≠ '\r'

/-- Whether a text is on one line can be computed. -/
instance : DecidablePred IsLine := fun cs =>
  List.decidableBAll (fun c => c ≠ '\n' ∧ c ≠ '\r') cs

/-- What is made of characters of a line is on one line. -/
theorem IsLine.subset {cs cs' : List Char} (h : IsLine cs) (hsub : cs' ⊆ cs) : IsLine cs' :=
  fun c hc => h c (hsub hc)

/-- Two texts are on one line together if both are. -/
theorem isLine_append {cs cs' : List Char} : IsLine (cs ++ cs') ↔ IsLine cs ∧ IsLine cs' :=
  List.forall_mem_append

/-- No digit ends a line. -/
theorem IsNumber.isLine {digits : List Char} (h : IsNumber digits) : IsLine digits := by
  have hlf : isDecimalDigit '\n' = false := by decide
  have hcr : isDecimalDigit '\r' = false := by decide
  intro c hc
  have hdigit := h.2 c hc
  constructor
  · rintro rfl
    simp [hlf] at hdigit
  · rintro rfl
    simp [hcr] at hdigit

/-- A number in decimal is a line number. -/
theorem isNumber_toDigits (n : Nat) : IsNumber (Nat.toDigits 10 n) := by
  refine ⟨Nat.toDigits_ne_nil, fun c hc => ?_⟩
  have hdigit := Char.isDigit_iff_toNat.mp (Nat.isDigit_of_mem_toDigits (by decide) (by decide) hc)
  rw [isDecimalDigit, Unicode.Ranges.covers, List.any_eq_true]
  refine ⟨(0x30, 0x39), List.mem_cons_self, ?_⟩
  simpa using hdigit

/-- A line number in front does not end a line. -/
theorem IsLine.located {digits text : List Char} (hdigits : IsNumber digits) (htext : IsLine text) :
    IsLine (located digits text) := by
  have hopen : IsLine "[line ".toList := by decide
  have hclose : IsLine "] ".toList := by decide
  rw [located_eq, isLine_append, isLine_append, isLine_append]
  exact ⟨hopen, hdigits.isLine, hclose, htext⟩

/-! ## Expected errors -/

/-- A line number with the word Error behind it. -/
def IsError (cs : List Char) : Prop :=
  ∃ digits more, IsNumber digits ∧ IsLine more ∧ cs = located digits ("Error".toList ++ more)

/-- A line number with nothing but the word Error behind it. -/
def IsBare (cs : List Char) : Prop :=
  ∃ digits, IsNumber digits ∧ cs = located digits "Error".toList

/-- An expected error can be shown exactly where there is something behind the word Error. -/
theorem IsError.isShown_iff {cs : List Char} (h : IsError cs) : IsShown cs ↔ ¬IsBare cs := by
  constructor
  · rintro ⟨digits, more, hnumber, hmore, -, hcs⟩ ⟨digits', hnumber', hcs'⟩
    rw [hcs, located_inj hnumber hnumber', List.append_right_eq_self] at hcs'
    exact hmore hcs'.2
  · intro hbare
    obtain ⟨digits, more, hnumber, hline, rfl⟩ := h
    refine ⟨digits, more, hnumber, fun hmore => hbare ⟨digits, hnumber, ?_⟩,
      fun hfeed => (hline _ hfeed).1 rfl, rfl⟩
    rw [hmore, List.append_nil]

/-- An error is on one line. -/
theorem IsError.isLine {cs : List Char} (h : IsError cs) : IsLine cs := by
  have hword : IsLine "Error".toList := by decide
  obtain ⟨digits, more, hnumber, hline, rfl⟩ := h
  exact .located hnumber (isLine_append.mpr ⟨hword, hline⟩)

end Pattern

/-! ## Lines of a sample -/

open Pattern

/-- What can be asked for: texts of one line, and errors that tell their line. -/
def Expectation.Sound : Expectation → Prop
  | .output text => IsLine text.toList
  | .error text => IsError text.toList
  | .runtimeError text => IsLine text.toList

/-- A comment on one line can only ask for that. -/
theorem Form.Begins.sound {form : Form} {number : Nat} {line : List Char} {found : Expectation}
    (h : form.Begins number line found) (hline : IsLine line) : found.Sound := by
  -- What each form takes is a part of the line, or has the number of the line in front of it.
  cases h with
  | spacedOutput text =>
    rw [Expectation.Sound, String.toList_ofList]
    exact hline.subset ((List.suffix_cons _ _).trans (List.suffix_append _ _)).subset
  | output text =>
    rw [Expectation.Sound, String.toList_ofList]
    exact hline.subset (List.suffix_append _ _).subset
  | errorElsewhere digits more hnumber =>
    rw [located_eq] at hline
    simp only [isLine_append] at hline
    rw [Expectation.Sound, String.toList_ofList]
    exact ⟨digits, more, hnumber, hline.2.2.2.2.2, rfl⟩
  | errorHere more =>
    rw [isLine_append, isLine_append] at hline
    rw [Expectation.Sound, String.toList_ofList]
    exact ⟨_, more, isNumber_toDigits number, hline.2.2, rfl⟩
  | runtimeError text =>
    have hword : IsLine "Error: ".toList := by decide
    rw [isLine_append] at hline
    rw [Expectation.Sound, String.toList_ofList]
    exact .located (isNumber_toDigits number) (isLine_append.mpr ⟨hword, hline.2⟩)

/-- A line asks for what one of its comments does. -/
theorem Expectation.sound_of_ofLine? {number : Nat} {line : List Char} {found : Expectation}
    (hline : IsLine line) (h : ofLine? number line = some found) : found.Sound := by
  obtain ⟨_, _, _, -, ⟨rest, hrest, hbegins, -⟩, -⟩ :=
    (ofLine?_eq_some_iff fun hfeed => (hline _ hfeed).1 rfl).mp h
  exact hbegins.sound (hline.subset hrest.subset)

namespace Expectations

/-- Everything that is expected can be asked for. -/
structure Sound (e : Expectations) : Prop where
  outputs : ∀ output ∈ e.outputs, IsLine output.2.toList
  errors : ∀ error ∈ e.errors, IsError error.toList
  runtimeError : ∀ error ∈ e.runtimeError, IsLine error.toList

/-- What is expected stays sound with one more sound expectation. -/
theorem Sound.add {e : Expectations} (h : e.Sound) (number : Nat) {found : Expectation}
    (hfound : found.Sound) : (e.add number found).Sound := by
  obtain ⟨houtputs, herrors, hruntime⟩ := h
  cases found with
  | output text =>
    refine ⟨?_, herrors, hruntime⟩
    exact List.forall_mem_append.mpr ⟨houtputs, List.forall_mem_singleton.mpr hfound⟩
  | error text =>
    refine ⟨houtputs, ?_, hruntime⟩
    exact List.forall_mem_append.mpr ⟨herrors, List.forall_mem_singleton.mpr hfound⟩
  | runtimeError text =>
    refine ⟨houtputs, herrors, fun error herror => ?_⟩
    exact Option.some.inj herror ▸ hfound

/-- Reading lines keeps to what can be asked for. -/
theorem Sound.readFrom {e : Expectations} (h : e.Sound) (number : Nat)
    {lines : List (List UInt8)} {texts : List String}
    (hlines : List.Forall₂ (Text.Utf8.decode? · = some ·) lines texts)
    (htexts : ∀ text ∈ texts, IsLine text.toList) : (readFrom e number lines).1.Sound := by
  -- Each line adds to what is expected, so this is arbitrary in the induction.
  induction hlines generalizing e number with
  | nil => exact h
  | @cons line text lines texts hline _ ih =>
    rw [List.forall_mem_cons] at htexts
    rw [Sample.readFrom, hline]
    dsimp only
    split
    · exact h
    · split
      · next found hfound =>
        exact ih (h.add number (Expectation.sound_of_ofLine? htexts.1 hfound)) _ htexts.2
      · exact ih h _ htexts.2

/-- A test does not expect errors of both kinds. -/
theorem isContradictory_of_readFrom_eq {e e' : Expectations} {number : Nat}
    {lines : List (List UInt8)} (h : Sample.readFrom e number lines = (e', .test)) :
    e'.isContradictory = false := by
  -- Only the end of the lines makes the file a test, and there both kinds are looked for.
  fun_induction Sample.readFrom e number lines with
  | case1 e number =>
    split at h
    · cases h
    · next hnot =>
      cases h
      exact Bool.eq_false_iff.mpr hnot
  | case2 => cases h
  | case3 => cases h
  | case4 _ _ _ _ _ _ _ _ _ ih => exact ih h
  | case5 _ _ _ _ _ _ _ _ ih => exact ih h

/-- What a sample without carriage returns expects can be asked for. -/
theorem sound_of_read_eq {bytes : List UInt8} {text : String} {e : Expectations} {status : Status}
    (hbytes : Text.Utf8.decode? bytes = some text) (hreturn : '\r' ∉ text.toList)
    (h : read (.ok bytes) = (e, status)) : e.Sound := by
  have hempty : ({} : Expectations).Sound := ⟨by simp, by simp, by simp⟩
  have hlines : ∀ line ∈ Text.lines text, IsLine line.toList := by
    intro line hline c hc
    obtain ⟨hfeed, hsub⟩ := Text.mem_of_mem_lines hline
    exact ⟨fun heq => hfeed (heq ▸ hc), fun heq => hreturn (heq ▸ hsub c hc)⟩
  have hsound := hempty.readFrom 1 (Text.decode?_byteLines hbytes) hlines
  rw [read] at h
  rwa [h] at hsound

end Expectations

end LoxCalc.Sample
