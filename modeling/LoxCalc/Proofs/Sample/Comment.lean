import LoxCalc.Proofs.Sample.Pattern
import LoxCalc.Sample.Expectations

/-!
# What a line of a sample expects

A comment that expects something has one of four forms, and goes up to the end of its line
(`Form.Begins`). A line may hold several comments. It expects what its leftmost comment of one form
does, and the form is the first in a fixed order of which there is a comment at all (`Expects`).

Reading a comment of a form gives what it expects (`Form.read_eq_some_iff`). Since the forms are
searched for one after another, a line is read as it is meant (`ofLine?_eq_some_iff`).
-/

namespace LoxCalc.Sample

open Pattern

/-- The forms of comments that expect something. -/
inductive Form where
  /-- A line of output. -/
  | output
  /-- An error on a line that is named. -/
  | errorElsewhere
  /-- An error on the line of the comment. -/
  | errorHere
  /-- An error of evaluation. -/
  | runtimeError

/-- The forms, from the one that goes before all others to the one that goes behind them. -/
def Form.byPriority : List Form :=
  [.output, .errorElsewhere, .errorHere, .runtimeError]

/-- A text that begins with a comment of the form, and what the comment expects if it stands on the
line with the given number. -/
inductive Form.Begins (number : Nat) : Form → List Char → Expectation → Prop
  /-- One blank behind the colon is no part of the output. -/
  | spacedOutput (text : List Char) :
    Begins number .output ("// expect:".toList ++ ' ' :: text) (.output (String.ofList text))
  | output (text : List Char) : text.head? ≠ some ' ' →
    Begins number .output ("// expect:".toList ++ text) (.output (String.ofList text))
  | errorElsewhere (digits more : List Char) : IsNumber digits →
    Begins number .errorElsewhere ("// ".toList ++ located digits ("Error".toList ++ more))
      (.error (String.ofList (located digits ("Error".toList ++ more))))
  | errorHere (more : List Char) :
    Begins number .errorHere ("// ".toList ++ ("Error".toList ++ more))
      (.error (String.ofList (located (Nat.toDigits 10 number) ("Error".toList ++ more))))
  | runtimeError (text : List Char) : text ≠ [] →
    Begins number .runtimeError ("// expect runtime error: ".toList ++ text)
      (.runtimeError (String.ofList (located (Nat.toDigits 10 number) ("Error: ".toList ++ text))))

/-- A comment of the form is somewhere in a line. -/
def Form.OccursIn (form : Form) (number : Nat) (line : List Char) : Prop :=
  ∃ rest found, rest <:+ line ∧ form.Begins number rest found

/-- The leftmost comment of the form in a line expects what is said. -/
def Form.FoundIn (form : Form) (number : Nat) (line : List Char) (found : Expectation) : Prop :=
  ∃ rest, rest <:+ line ∧ form.Begins number rest found ∧
    ∀ rest' other, rest' <:+ line → form.Begins number rest' other → rest'.length ≤ rest.length

/-- The line with the given number expects what its leftmost comment does, of the first form of
which there is a comment in the line. -/
def Expects (number : Nat) (line : List Char) (found : Expectation) : Prop :=
  ∃ before form behind, Form.byPriority = before ++ form :: behind ∧
    form.FoundIn number line found ∧ ∀ earlier ∈ before, ¬earlier.OccursIn number line

/-! ## Reading one comment -/

section Read

variable {cs text : List Char} {number : Nat}

/-- Nothing is cut off a text without a line end. -/
theorem toLineEnd_eq_self (h : '\n' ∉ cs) : toLineEnd cs = cs :=
  List.takeWhile_eq_self_iff.mpr fun c hc => by simpa using fun heq : c = '\n' => h (heq ▸ hc)

/-- The text behind one blank, if it begins with one. -/
theorem getD_behind_blank {rest : List Char} :
    (behind [' '] rest).getD rest = text ↔
      rest = ' ' :: text ∨ rest = text ∧ text.head? ≠ some ' ' := by
  cases rest with
  | nil => simp +contextual [behind, eq_comm]
  | cons c rest =>
    by_cases hblank : ' ' = c
    · subst hblank
      simp +contextual [behind, eq_comm]
    · have hne : ¬c = ' ' := Ne.symm hblank
      simp +contextual [behind, hblank, hne, eq_comm]

/-- A line of output is what is behind the mark and one blank, if there is one. -/
theorem output_eq_some_iff (h : '\n' ∉ cs) :
    Pattern.output cs = some text ↔ cs = "// expect:".toList ++ ' ' :: text ∨
      cs = "// expect:".toList ++ text ∧ text.head? ≠ some ' ' := by
  -- Nothing is cut off at the end of the line, whether there is a blank or not.
  have hline {rest : List Char} (hcs : cs = "// expect:".toList ++ rest) :
      toLineEnd ((behind [' '] rest).getD rest) = (behind [' '] rest).getD rest := by
    generalize htext : (behind [' '] rest).getD rest = trimmed
    rw [hcs] at h
    apply toLineEnd_eq_self
    rcases getD_behind_blank.mp htext with rfl | ⟨rfl, -⟩
    · exact fun hmem => h (List.mem_append_right _ (List.mem_cons_of_mem _ hmem))
    · exact fun hmem => h (List.mem_append_right _ hmem)
  simp only [Pattern.output, Option.bind_eq_bind, Option.bind_eq_some_iff, behind_eq_some_iff,
    Option.pure_def, Option.some.injEq]
  constructor
  · rintro ⟨rest, hcs, htext⟩
    rw [hline hcs, getD_behind_blank] at htext
    rcases htext with rfl | ⟨rfl, hblank⟩
    · exact .inl hcs
    · exact .inr ⟨hcs, hblank⟩
  · rintro (hcs | ⟨hcs, hblank⟩)
    · exact ⟨_, hcs, (hline hcs).trans (getD_behind_blank.mpr (.inl rfl))⟩
    · exact ⟨_, hcs, (hline hcs).trans (getD_behind_blank.mpr (.inr ⟨rfl, hblank⟩))⟩

/-- On one line an error is the word and all that follows. -/
theorem errorText_eq_some_iff_of_notMem (h : '\n' ∉ cs) :
    errorText cs = some text ↔
      ∃ more, cs = "Error".toList ++ more ∧ text = "Error".toList ++ more := by
  rw [errorText_eq_some_iff]
  refine exists_congr fun more => and_congr_right fun hcs => ?_
  have hmore : '\n' ∉ more := fun hmem => h (hcs ▸ List.mem_append_right _ hmem)
  rw [toLineEnd_eq_self hmore]

/-- An error on another line is given with the number of that line. -/
theorem errorElsewhere_eq_some_iff (h : '\n' ∉ cs) :
    Pattern.errorElsewhere cs = some text ↔ ∃ digits more, IsNumber digits ∧
      cs = "// ".toList ++ located digits ("Error".toList ++ more) ∧
      text = located digits ("Error".toList ++ more) := by
  simp only [Pattern.errorElsewhere, Option.bind_eq_bind, Option.bind_eq_some_iff,
    behind_eq_some_iff, Option.pure_def, Option.some.injEq, Prod.exists, lineNumber_eq_some_iff]
  constructor
  · -- The line number holds no line end, so that what follows it has none either.
    rintro ⟨_, hcs, digits, rest, ⟨hnumber, rfl⟩, error, herror, rfl⟩
    have hrest : '\n' ∉ rest := by
      rw [hcs, located_eq] at h
      simp only [List.mem_append, not_or] at h
      exact h.2.2.2.2
    obtain ⟨more, rfl, rfl⟩ := (errorText_eq_some_iff_of_notMem hrest).mp herror
    exact ⟨digits, more, hnumber, hcs, rfl⟩
  · rintro ⟨digits, more, hnumber, hcs, rfl⟩
    have hrest : '\n' ∉ "Error".toList ++ more := by
      rw [hcs, located_eq] at h
      simp only [List.mem_append, not_or] at h ⊢
      exact h.2.2.2.2
    exact ⟨_, hcs, digits, _, ⟨hnumber, rfl⟩, _,
      (errorText_eq_some_iff_of_notMem hrest).mpr ⟨more, rfl, rfl⟩, rfl⟩

/-- An error on this line is given without a number, and gets that of the line. -/
theorem errorHere_eq_some_iff (h : '\n' ∉ cs) :
    Pattern.errorHere number cs = some text ↔ ∃ more,
      cs = "// ".toList ++ ("Error".toList ++ more) ∧
      text = located (Nat.toDigits 10 number) ("Error".toList ++ more) := by
  simp only [Pattern.errorHere, Option.bind_eq_bind, Option.bind_eq_some_iff, behind_eq_some_iff,
    Option.pure_def, Option.some.injEq]
  constructor
  · rintro ⟨rest, rfl, error, herror, rfl⟩
    have hrest : '\n' ∉ rest := fun hmem => h (List.mem_append_right _ hmem)
    obtain ⟨more, rfl, rfl⟩ := (errorText_eq_some_iff_of_notMem hrest).mp herror
    exact ⟨more, rfl, rfl⟩
  · rintro ⟨more, rfl, rfl⟩
    have hrest : '\n' ∉ "Error".toList ++ more := fun hmem => h (List.mem_append_right _ hmem)
    exact ⟨_, rfl, _, (errorText_eq_some_iff_of_notMem hrest).mpr ⟨more, rfl, rfl⟩, rfl⟩

/-- An error of evaluation is what is behind the mark, unless that is nothing. -/
theorem runtimeError_eq_some_iff (h : '\n' ∉ cs) :
    Pattern.runtimeError number cs = some text ↔ ∃ more, more ≠ [] ∧
      cs = "// expect runtime error: ".toList ++ more ∧
      text = located (Nat.toDigits 10 number) ("Error: ".toList ++ more) := by
  simp only [Pattern.runtimeError, Option.bind_eq_bind, Option.bind_eq_some_iff, behind_eq_some_iff]
  constructor
  · rintro ⟨rest, rfl, hrest⟩
    rw [toLineEnd_eq_self fun hmem => h (List.mem_append_right _ hmem)] at hrest
    split at hrest
    · cases hrest
    · next hne =>
      cases hrest
      exact ⟨rest, by simpa using hne, rfl, rfl⟩
  · rintro ⟨more, hne, rfl, rfl⟩
    refine ⟨more, rfl, ?_⟩
    rw [toLineEnd_eq_self fun hmem => h (List.mem_append_right _ hmem), if_neg (by simpa using hne)]
    rfl

/-- What a comment of the form expects, read from a text that begins with it. -/
def Form.read (number : Nat) (form : Form) (cs : List Char) : Option Expectation :=
  match form with
  | .output => (Pattern.output cs).map (.output <| String.ofList ·)
  | .errorElsewhere => (Pattern.errorElsewhere cs).map (.error <| String.ofList ·)
  | .errorHere => (Pattern.errorHere number cs).map (.error <| String.ofList ·)
  | .runtimeError => (Pattern.runtimeError number cs).map (.runtimeError <| String.ofList ·)

/-- On one line, reading gives what the comment at the beginning expects, if there is one. -/
theorem Form.read_eq_some_iff {form : Form} {found : Expectation} (h : '\n' ∉ cs) :
    form.read number cs = some found ↔ form.Begins number cs found := by
  -- Each form is read by its own pattern, whose description is that of the form.
  cases form with
  | output =>
    simp only [read, Option.map_eq_some_iff, output_eq_some_iff h]
    constructor
    · rintro ⟨text, rfl | ⟨rfl, hblank⟩, rfl⟩
      · exact .spacedOutput text
      · exact .output text hblank
    · intro hbegins
      cases hbegins with
      | spacedOutput text => exact ⟨text, .inl rfl, rfl⟩
      | output text hblank => exact ⟨text, .inr ⟨rfl, hblank⟩, rfl⟩
  | errorElsewhere =>
    simp only [read, Option.map_eq_some_iff, errorElsewhere_eq_some_iff h]
    constructor
    · rintro ⟨_, ⟨digits, more, hnumber, rfl, rfl⟩, rfl⟩
      exact .errorElsewhere digits more hnumber
    · intro hbegins
      cases hbegins with
      | errorElsewhere digits more hnumber => exact ⟨_, ⟨digits, more, hnumber, rfl, rfl⟩, rfl⟩
  | errorHere =>
    simp only [read, Option.map_eq_some_iff, errorHere_eq_some_iff h]
    constructor
    · rintro ⟨_, ⟨more, rfl, rfl⟩, rfl⟩
      exact .errorHere more
    · intro hbegins
      cases hbegins with
      | errorHere more => exact ⟨_, ⟨more, rfl, rfl⟩, rfl⟩
  | runtimeError =>
    simp only [read, Option.map_eq_some_iff, runtimeError_eq_some_iff h]
    constructor
    · rintro ⟨_, ⟨more, hne, rfl, rfl⟩, rfl⟩
      exact .runtimeError more hne
    · intro hbegins
      cases hbegins with
      | runtimeError more hne => exact ⟨_, ⟨more, hne, rfl, rfl⟩, rfl⟩

end Read

/-! ## Reading one line -/

section Line

variable {number : Nat} {line : List Char}

/-- The forms are searched for one after another. -/
theorem ofLine?_eq_findSome? (number : Nat) (line : List Char) :
    Expectation.ofLine? number line =
      Form.byPriority.findSome? fun form => search (form.read number) line := by
  -- Both sides stop at the first form that gives something.
  have hcons (form : Form) (forms : List Form) (f : Form → Option Expectation) :
      (form :: forms).findSome? f = (f form).or (forms.findSome? f) := by
    rw [List.findSome?_cons]
    cases f form <;> rfl
  simp only [Expectation.ofLine?, ← search_map]
  simp only [Form.byPriority, hcons, List.findSome?_nil, Option.or_none]
  rfl

/-- A search finds what begins furthest to the left. -/
theorem Form.search_read_eq_some_iff {form : Form} {found : Expectation} (h : '\n' ∉ line) :
    search (form.read number) line = some found ↔ form.FoundIn number line found := by
  have hread {rest : List Char} (hrest : rest <:+ line) {other : Expectation} :
      form.read number rest = some other ↔ form.Begins number rest other :=
    read_eq_some_iff fun hmem => h (hrest.subset hmem)
  -- A suffix is longer the further to the left it begins.
  rw [search_eq_some_iff, FoundIn]
  refine exists_congr fun rest => and_congr_right fun hrest => and_congr (hread hrest) ?_
  constructor
  · -- If something began further to the left, the search would have stopped there.
    intro hleft rest' other hrest' hbegins
    by_contra hlength
    have hnone := hleft rest' hrest' (Nat.lt_of_not_le hlength)
    rw [(hread hrest').mpr hbegins] at hnone
    cases hnone
  · intro hleft rest' hrest' hlength
    rw [Option.eq_none_iff_forall_ne_some]
    intro other hother
    exact Nat.not_le_of_lt hlength (hleft rest' other hrest' ((hread hrest').mp hother))

/-- A search finds nothing if nothing of the form occurs. -/
theorem Form.search_read_eq_none_iff {form : Form} (h : '\n' ∉ line) :
    search (form.read number) line = none ↔ ¬form.OccursIn number line := by
  rw [search_eq_none_iff]
  simp only [Option.eq_none_iff_forall_ne_some, OccursIn, not_exists, not_and]
  refine forall_congr' fun rest => ?_
  constructor
  · intro hnone found hrest hbegins
    exact hnone hrest found ((read_eq_some_iff fun hmem => h (hrest.subset hmem)).mpr hbegins)
  · intro hnone hrest found hread
    exact hnone found hrest ((read_eq_some_iff fun hmem => h (hrest.subset hmem)).mp hread)

/-- A line is read as it is meant. -/
theorem ofLine?_eq_some_iff {found : Expectation} (h : '\n' ∉ line) :
    Expectation.ofLine? number line = some found ↔ Expects number line found := by
  simp only [ofLine?_eq_findSome?, List.findSome?_eq_some_iff, Expects,
    Form.search_read_eq_some_iff h, Form.search_read_eq_none_iff h]

/-- A line marks its file as no test wherever the comment stands. -/
theorem isNontest_iff : isNontest line = true ↔ "// nontest".toList <:+: line := by
  rw [isNontest, Option.isSome_iff_ne_none, ne_eq, search_eq_none_iff]
  push Not
  constructor
  · rintro ⟨rest, hrest, hread⟩
    obtain ⟨_, hread⟩ := Option.ne_none_iff_exists'.mp hread
    simp only [nontest, Option.bind_eq_bind, Option.bind_eq_some_iff, behind_eq_some_iff] at hread
    obtain ⟨more, rfl, -⟩ := hread
    exact (List.prefix_append _ more).isInfix.trans hrest.isInfix
  · rintro ⟨front, more, rfl⟩
    refine ⟨"// nontest".toList ++ more, ⟨front, (List.append_assoc _ _ _).symm⟩, ?_⟩
    rw [nontest, behind_eq_some_iff.mpr rfl]
    nofun

end Line

end LoxCalc.Sample
