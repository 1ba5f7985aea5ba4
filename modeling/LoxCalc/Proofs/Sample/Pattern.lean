import LoxCalc.Sample.Pattern
import Mathlib.Data.List.Infix
import Mathlib.Data.List.TakeWhile

/-!
# What searching a line finds

Forms are read by functions; here is what they mean. A form is a set of texts, and what a line holds
of it is the leftmost stretch of the line that has the form, the longest of those that begin there
(`FoundIn`). Searching takes the leftmost place where something can be read (`search_eq_some_iff`).
Reading an error takes the longest stretch that begins there (`shownError_eq_some_iff_longestAt`).
So a search gives exactly the error that the line holds (`search_shownError_eq_some_iff`).
-/

namespace LoxCalc.Sample.Pattern

open Unicode (isDecimalDigit)

/-! ## Leftmost and longest -/

section Found

variable {form : List Char → Prop} {cs line found found' : List Char}

/-- The longest beginning of the given characters that has the form. -/
structure LongestAt (form : List Char → Prop) (cs found : List Char) : Prop where
  /-- It has the form. -/
  hasForm : form found
  /-- The characters begin with it. -/
  begins : found <+: cs
  /-- No longer beginning has the form. -/
  longest : ∀ other, form other → other <+: cs → other.length ≤ found.length

/-- The leftmost stretch of a line that has the form, the longest of those that begin there. -/
def FoundIn (form : List Char → Prop) (line found : List Char) : Prop :=
  ∃ rest, rest <:+ line ∧ LongestAt form rest found ∧
    -- Where something of the form begins, no more of the line is left than here.
    ∀ rest' other, rest' <:+ line → form other → other <+: rest' → rest'.length ≤ rest.length

/-- There is one longest text of a form at a place. -/
theorem LongestAt.unique (h : LongestAt form cs found) (h' : LongestAt form cs found') :
    found = found' := by
  have hlength : found.length = found'.length :=
    Nat.le_antisymm (h'.longest found h.hasForm h.begins) (h.longest found' h'.hasForm h'.begins)
  exact (List.prefix_of_prefix_length_le h.begins h'.begins hlength.le).eq_of_length hlength

/-- Where something has the form, something is the longest. -/
theorem exists_longestAt {other : List Char} (hform : form other) (hbegins : other <+: cs) :
    ∃ found, LongestAt form cs found := by
  by_cases hlongest : ∀ longer, form longer → longer <+: cs → longer.length ≤ other.length
  · exact ⟨other, hform, hbegins, hlongest⟩
  · push Not at hlongest
    obtain ⟨longer, hform', hbegins', hlength⟩ := hlongest
    have hbound := hbegins'.length_le
    exact exists_longestAt hform' hbegins'
termination_by cs.length - other.length

/-- What is found has the form that was looked for. -/
theorem FoundIn.hasForm (h : FoundIn form line found) : form found := by
  obtain ⟨rest, -, hlongest, -⟩ := h
  exact hlongest.hasForm

/-- A whole line of the form is found in itself. -/
theorem FoundIn.self (h : form line) : FoundIn form line line :=
  ⟨line, List.suffix_refl line, ⟨h, List.prefix_refl line, fun _ _ hother => hother.length_le⟩,
    fun _ _ hrest _ _ => hrest.length_le⟩

end Found

/-! ## Searching -/

section Search

variable {α : Type} {read : List Char → Option α} {line : List Char}

/-- What is found is what is read at the leftmost place where the form can be read. -/
theorem search_eq_some_iff {a : α} :
    search read line = some a ↔
      ∃ rest, rest <:+ line ∧ read rest = some a ∧
        ∀ rest', rest' <:+ line → rest.length < rest'.length → read rest' = none := by
  -- The search tries the whole line first and then what is behind its first character.
  induction line with
  | nil => simp [search]
  | cons c cs ih =>
    rw [search, Option.or_eq_some_iff, ih]
    constructor
    · rintro (hhere | ⟨hhere, rest, hrest, hread, hleft⟩)
      · refine ⟨c :: cs, List.suffix_refl _, hhere, fun rest' hrest' hlength => ?_⟩
        exact absurd hrest'.length_le (Nat.not_le_of_lt hlength)
      · refine ⟨rest, hrest.trans (List.suffix_cons c cs), hread, fun rest' hrest' hlength => ?_⟩
        rcases List.suffix_cons_iff.mp hrest' with rfl | hrest'
        · exact hhere
        · exact hleft rest' hrest' hlength
    · rintro ⟨rest, hrest, hread, hleft⟩
      rcases List.suffix_cons_iff.mp hrest with rfl | hrest
      · exact .inl hread
      · have hhere := hleft _ (List.suffix_refl _) (Nat.lt_succ_of_le hrest.length_le)
        refine .inr ⟨hhere, rest, hrest, hread, fun rest' hrest' => ?_⟩
        exact hleft rest' (hrest'.trans (List.suffix_cons c cs))

/-- Nothing is found where the form can be read nowhere. -/
theorem search_eq_none_iff :
    search read line = none ↔ ∀ rest, rest <:+ line → read rest = none := by
  induction line with
  | nil => simp [search]
  | cons c cs ih => simp [search, Option.or_eq_none_iff, ih, List.suffix_cons_iff]

/-- What is found can be changed as it is read. -/
theorem search_map {β : Type} (f : α → β) (line : List Char) :
    search (fun cs => (read cs).map f) line = (search read line).map f := by
  induction line with
  | nil => rfl
  | cons c cs ih => rw [search, search, ih, Option.map_or]

/-- A search with a reader that takes the longest stretch at each place finds what the line
holds. -/
theorem search_eq_some_iff_foundIn {form : List Char → Prop} {read : List Char → Option (List Char)}
    (hread : ∀ cs found, read cs = some found ↔ LongestAt form cs found) {found : List Char} :
    search read line = some found ↔ FoundIn form line found := by
  -- A form that begins somewhere has a longest text there, so that reading fails only where none
  -- begins.
  have hnone (cs : List Char) : read cs = none ↔ ∀ other, form other → ¬other <+: cs := by
    rw [Option.eq_none_iff_forall_ne_some]
    constructor
    · intro h other hform hbegins
      obtain ⟨found, hfound⟩ := exists_longestAt hform hbegins
      exact h found ((hread cs found).mpr hfound)
    · intro h found hfound
      have hlongest := (hread cs found).mp hfound
      exact h found hlongest.hasForm hlongest.begins
  simp only [search_eq_some_iff, FoundIn, hread, hnone]
  refine exists_congr fun rest => and_congr_right fun _ => and_congr_right fun _ => ?_
  constructor
  · intro h rest' other hrest' hform hbegins
    by_contra hlength
    exact h rest' hrest' (Nat.lt_of_not_le hlength) other hform hbegins
  · intro h rest' hrest' hlength other hform hbegins
    exact Nat.not_le_of_lt hlength (h rest' other hrest' hform hbegins)

end Search

/-! ## Forms -/

/-- What is behind a beginning is the rest of a text that begins with it. -/
theorem behind_eq_some_iff {beginning cs rest : List Char} :
    behind beginning cs = some rest ↔ cs = beginning ++ rest := by
  induction beginning generalizing cs with
  | nil => simp [behind]
  | cons l ls ih =>
    cases cs with
    | nil => simp [behind]
    | cons c cs =>
      rw [behind]
      split
      · next h => rw [ih, h, List.cons_append, List.cons_inj_right]
      · next h => simp [Ne.symm h]

/-- The digits of a line number: one or more. -/
def IsNumber (digits : List Char) : Prop :=
  digits ≠ [] ∧ ∀ d ∈ digits, isDecimalDigit d = true

/-- The parts of a located text, from left to right. -/
theorem located_eq (digits text : List Char) :
    located digits text = "[line ".toList ++ (digits ++ ("] ".toList ++ text)) := by
  unfold located
  rw [List.append_assoc, List.append_assoc]

/-- What is behind a located text is behind its text. -/
theorem located_append (digits text rest : List Char) :
    located digits text ++ rest = located digits (text ++ rest) := by
  simp only [located_eq, List.append_assoc]

/-- The bracket behind a line number ends its digits. -/
theorem IsNumber.span {digits : List Char} (h : IsNumber digits) (rest : List Char) :
    (digits ++ ("] ".toList ++ rest)).takeWhile isDecimalDigit = digits ∧
      (digits ++ ("] ".toList ++ rest)).dropWhile isDecimalDigit = "] ".toList ++ rest := by
  have hbracket : ¬isDecimalDigit ']' = true := by decide
  rw [List.takeWhile_append_of_pos h.2, List.dropWhile_append_of_pos h.2]
  change digits ++ List.takeWhile isDecimalDigit (']' :: ' ' :: rest) = digits ∧
    List.dropWhile isDecimalDigit (']' :: ' ' :: rest) = ']' :: ' ' :: rest
  rw [List.takeWhile_cons_of_neg hbracket, List.dropWhile_cons_of_neg hbracket, List.append_nil]
  exact ⟨rfl, rfl⟩

/-- A line number in brackets is read as it stands, with all its digits. -/
theorem lineNumber_eq_some_iff {cs digits rest : List Char} :
    lineNumber cs = some (digits, rest) ↔ IsNumber digits ∧ cs = located digits rest := by
  constructor
  · intro h
    simp only [lineNumber, Option.bind_eq_bind, Option.bind_eq_some_iff, behind_eq_some_iff] at h
    obtain ⟨numbered, hcs, h⟩ := h
    split at h
    · cases h
    · next hne =>
      simp only [Option.bind_eq_some_iff, behind_eq_some_iff] at h
      obtain ⟨_, hclose, heq⟩ := h
      rw [Option.pure_def, Option.some.injEq, Prod.mk.injEq] at heq
      obtain ⟨rfl, rfl⟩ := heq
      -- The digits that are read are as many as there are, and a bracket has to follow them.
      have hsplit : numbered.takeWhile isDecimalDigit ++ ("] ".toList ++ _) = numbered :=
        hclose ▸ List.takeWhile_append_dropWhile
      refine ⟨⟨?_, fun d hd => List.mem_takeWhile_imp hd⟩, ?_⟩
      · simpa using hne
      · rw [located_eq, hsplit, hcs]
  · rintro ⟨hnumber, rfl⟩
    obtain ⟨htake, hdrop⟩ := hnumber.span rest
    have hopen : behind "[line ".toList (located digits rest) =
        some (digits ++ ("] ".toList ++ rest)) := behind_eq_some_iff.mpr (located_eq digits rest)
    have hclose : behind "] ".toList ("] ".toList ++ rest) = some rest :=
      behind_eq_some_iff.mpr rfl
    have hne : ¬digits.isEmpty = true := by simpa using hnumber.1
    rw [lineNumber, hopen, Option.bind_eq_bind, Option.bind_some]
    dsimp only
    rw [htake, hdrop, hclose, if_neg hne]
    rfl

/-- An error tells the line it is on, and its text. -/
theorem located_inj {digits digits' text text' : List Char} (h : IsNumber digits)
    (h' : IsNumber digits') :
    located digits text = located digits' text' ↔ digits = digits' ∧ text = text' := by
  constructor
  · intro heq
    have hread : lineNumber (located digits' text') = some (digits, text) :=
      lineNumber_eq_some_iff.mpr ⟨h, heq.symm⟩
    rw [lineNumber_eq_some_iff.mpr ⟨h', rfl⟩, Option.some.injEq, Prod.mk.injEq] at hread
    exact ⟨hread.1.symm, hread.2.symm⟩
  · rintro ⟨rfl, rfl⟩
    rfl

/-- A stretch without a line feed is before the end of the line. -/
theorem toLineEnd_append {stretch : List Char} (h : '\n' ∉ stretch) (rest : List Char) :
    toLineEnd (stretch ++ rest) = stretch ++ toLineEnd rest := by
  apply List.takeWhile_append_of_pos
  intro c hc
  simpa using fun heq : c = '\n' => h (heq ▸ hc)

/-- An error text is the word and what follows it up to the end of the line. -/
theorem errorText_eq_some_iff {cs text : List Char} :
    errorText cs = some text ↔
      ∃ more, cs = "Error".toList ++ more ∧ text = "Error".toList ++ toLineEnd more := by
  simp only [errorText, Option.bind_eq_bind, Option.bind_eq_some_iff, behind_eq_some_iff,
    Option.pure_def, Option.some.injEq, @eq_comm _ _ text]

/-! ## Shown errors -/

/-- A text that a program can show as an error: a line number, and something behind the word Error
that stays on the line. -/
def IsShown (shown : List Char) : Prop :=
  ∃ digits more, IsNumber digits ∧ more ≠ [] ∧ '\n' ∉ more ∧
    shown = located digits ("Error".toList ++ more)

/-- An error is read up to the end of the line. -/
theorem shownError_eq_some_iff {cs shown : List Char} :
    shownError cs = some shown ↔
      ∃ digits more, IsNumber digits ∧ cs = located digits ("Error".toList ++ more) ∧
        toLineEnd more ≠ [] ∧ shown = located digits ("Error".toList ++ toLineEnd more) := by
  -- A word with nothing behind it on its line is not shown as an error.
  constructor
  · intro h
    simp only [shownError, Option.bind_eq_bind, Option.bind_eq_some_iff, Prod.exists,
      lineNumber_eq_some_iff, errorText_eq_some_iff] at h
    obtain ⟨digits, rest, ⟨hnumber, hcs⟩, text, ⟨more, hrest, htext⟩, h⟩ := h
    split at h
    · cases h
    · next hbare =>
      rw [Option.pure_def, Option.some.injEq, htext] at h
      rw [htext, List.append_right_eq_self] at hbare
      exact ⟨digits, more, hnumber, hrest ▸ hcs, hbare, h.symm⟩
  · rintro ⟨digits, more, hnumber, rfl, hmore, rfl⟩
    have hline : lineNumber (located digits ("Error".toList ++ more)) =
        some (digits, "Error".toList ++ more) := lineNumber_eq_some_iff.mpr ⟨hnumber, rfl⟩
    have htext : errorText ("Error".toList ++ more) = some ("Error".toList ++ toLineEnd more) :=
      errorText_eq_some_iff.mpr ⟨more, rfl, rfl⟩
    have hbare : ¬"Error".toList ++ toLineEnd more = "Error".toList := by
      rwa [List.append_right_eq_self]
    rw [shownError, hline, Option.bind_eq_bind, Option.bind_some]
    dsimp only
    rw [htext, Option.bind_eq_bind, Option.bind_some, if_neg hbare]
    rfl

/-- A text that begins with an error gives more of that error. -/
theorem shownError_append {digits more : List Char} (hnumber : IsNumber digits) (hmore : more ≠ [])
    (hfeed : '\n' ∉ more) (rest : List Char) :
    shownError (located digits ("Error".toList ++ more) ++ rest) =
      some (located digits ("Error".toList ++ more) ++ toLineEnd rest) := by
  rw [shownError_eq_some_iff]
  refine ⟨digits, more ++ rest, hnumber, ?_, ?_, ?_⟩
  · rw [located_append, List.append_assoc]
  · rw [toLineEnd_append hfeed]
    exact List.append_ne_nil_of_left_ne_nil hmore _
  · rw [toLineEnd_append hfeed, located_append, List.append_assoc]

/-- What is read of an error is the longest text that can be shown. -/
theorem shownError_eq_some_iff_longestAt {cs shown : List Char} :
    shownError cs = some shown ↔ LongestAt IsShown cs shown := by
  have hbegins {other : List Char} (hother : IsShown other) (hcs : other <+: cs) :
      ∃ found, shownError cs = some found ∧ other <+: found := by
    obtain ⟨digits, more, hnumber, hmore, hfeed, rfl⟩ := hother
    obtain ⟨rest, rfl⟩ := hcs
    exact ⟨_, shownError_append hnumber hmore hfeed rest, List.prefix_append _ _⟩
  have hlongest {found : List Char} (h : shownError cs = some found) :
      LongestAt IsShown cs found := by
    refine ⟨?_, ?_, fun other hother hcs => ?_⟩
    · obtain ⟨digits, more, hnumber, -, hmore, rfl⟩ := shownError_eq_some_iff.mp h
      refine ⟨digits, toLineEnd more, hnumber, hmore, fun hfeed => ?_, rfl⟩
      simpa using List.mem_takeWhile_imp hfeed
    · obtain ⟨digits, more, -, rfl, -, rfl⟩ := shownError_eq_some_iff.mp h
      rw [located_eq, located_eq]
      simp only [List.prefix_append_right_inj]
      exact List.takeWhile_prefix _
    · obtain ⟨found', hfound', hother'⟩ := hbegins hother hcs
      rw [h, Option.some.injEq] at hfound'
      exact hfound' ▸ hother'.length_le
  refine ⟨hlongest, fun h => ?_⟩
  -- Something is read, and it is the longest as well.
  obtain ⟨found, hfound, -⟩ := hbegins h.hasForm h.begins
  rwa [h.unique (hlongest hfound)]

/-- A search for an error finds the one that the line holds. -/
theorem search_shownError_eq_some_iff {line shown : List Char} :
    search shownError line = some shown ↔ FoundIn IsShown line shown :=
  search_eq_some_iff_foundIn fun _ _ => shownError_eq_some_iff_longestAt

end LoxCalc.Sample.Pattern
