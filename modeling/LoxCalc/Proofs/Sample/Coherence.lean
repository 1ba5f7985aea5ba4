import LoxCalc.Proofs.Sample.Comment
import LoxCalc.Proofs.Text.Unlines

/-!
# What a sample expects in all

The lines of a sample are read up to the first one that is no text or marks its file as no test
(`EndsReading`). Each of them gives the expectation that it has, with its number, and what is
expected in all is made of these, in their order (`Coherent`, `read_coherent`).

Reading a sample is therefore described by the list of these expectations, with one equation for
reading (`readFrom_eq`) and one for each field of the result (`outputs_addAll` and those behind it).
The exit code depends on the order of the errors only where both kinds are expected, and then the
sample is no test (`ExitFits`).
-/

namespace LoxCalc.Sample

open Text.Utf8 (decode?)

/-- Reading goes no further than a line that is no text, or that marks its file as no test. -/
def EndsReading (line : List UInt8) : Prop :=
  ∀ text, decode? line = some text → "// nontest".toList <:+: text.toList

/-- A line that is no text ends the reading. -/
theorem endsReading_of_none {line : List UInt8} (h : decode? line = none) : EndsReading line := by
  intro text htext
  rw [h] at htext
  cases htext

/-- A line of text ends the reading if it marks the file as no test. -/
theorem endsReading_iff_of_some {line : List UInt8} {text : String} (h : decode? line = some text) :
    EndsReading line ↔ isNontest text.toList = true := by
  rw [isNontest_iff, EndsReading, h]
  exact ⟨fun hends => hends text rfl, fun hmark _ htext => Option.some.inj htext ▸ hmark⟩

/-- Whether a line ends the reading can be computed. -/
instance : DecidablePred EndsReading := fun line =>
  match h : decode? line with
  | none => isTrue (endsReading_of_none h)
  | some _ => decidable_of_iff _ (endsReading_iff_of_some h).symm

/-- The lines that are read. -/
def linesRead (lines : List (List UInt8)) : List (List UInt8) :=
  lines.takeWhile (¬EndsReading ·)

/-- The line with the given number, counted from one, is read, and expects what is said. -/
def Counts (lines : List (List UInt8)) (number : Nat) (found : Expectation) : Prop :=
  ∃ line text, (line, number) ∈ (linesRead lines).zipIdx 1 ∧ decode? line = some text ∧
    Expects number text.toList found

/-- Whether a sample is a test, if it can be read. -/
def Status.isTest : Status → Except FileError Bool
  | .test => .ok true
  | .nontest | .contradictory => .ok false
  | .unreadable e => .error e

/-! ## Adding expectations -/

namespace Expectation

/-- The line of output, with its number, if that is expected. -/
def output? : Nat × Expectation → Option (Nat × String)
  | (number, .output text) => some (number, text)
  | _ => none

/-- The error before evaluation, if that is expected. -/
def error? : Nat × Expectation → Option String
  | (_, .error text) => some text
  | _ => none

/-- The error of evaluation, if that is expected. -/
def runtimeError? : Nat × Expectation → Option String
  | (_, .runtimeError text) => some text
  | _ => none

/-- There is no fourth kind. -/
theorem length_eq (found : List (Nat × Expectation)) :
    found.length = (found.filterMap output?).length + (found.filterMap error?).length +
      (found.filterMap runtimeError?).length := by
  induction found with
  | nil => rfl
  | cons p found ih =>
    obtain ⟨number, output | error | runtimeError⟩ := p <;>
      simp only [List.filterMap_cons, output?, error?, runtimeError?, List.length_cons] <;> omega

/-- The lines of output are those among the expectations. -/
theorem mem_filterMap_output? {found : List (Nat × Expectation)} {number : Nat} {text : String} :
    (number, text) ∈ found.filterMap output? ↔ (number, .output text) ∈ found := by
  rw [List.mem_filterMap]
  constructor
  · rintro ⟨⟨number', output | error | runtimeError⟩, hmem, heq⟩ <;> cases heq
    exact hmem
  · exact fun hmem => ⟨_, hmem, rfl⟩

/-- A line of output keeps its number. -/
theorem fst_of_output? {p : Nat × Expectation} {q : Nat × String} (h : output? p = some q) :
    q.1 = p.1 := by
  obtain ⟨number, output | error | runtimeError⟩ := p <;> cases h
  rfl

end Expectation

namespace Expectations

/-- The expectations with those of some lines, one after another. -/
def addAll (e : Expectations) (found : List (Nat × Expectation)) : Expectations :=
  found.foldl (fun e p => e.add p.1 p.2) e

section AddAll

variable (e : Expectations) (found : List (Nat × Expectation))

/-- Expectations are added in order. -/
theorem addAll_cons (p : Nat × Expectation) :
    e.addAll (p :: found) = (e.add p.1 p.2).addAll found := rfl

/-- The lines of output are added behind those there are. -/
theorem outputs_addAll :
    (e.addAll found).outputs = e.outputs ++ found.filterMap Expectation.output? := by
  -- The expectations before are arbitrary, since each one added changes them.
  induction found generalizing e with
  | nil => exact (List.append_nil _).symm
  | cons p found ih =>
    obtain ⟨number, output | error | runtimeError⟩ := p <;>
      simp [addAll_cons, ih, add, List.filterMap_cons, Expectation.output?]

/-- The errors are added behind those there are. -/
theorem errors_addAll :
    (e.addAll found).errors = e.errors ++ found.filterMap Expectation.error? := by
  induction found generalizing e with
  | nil => exact (List.append_nil _).symm
  | cons p found ih =>
    obtain ⟨number, output | error | runtimeError⟩ := p <;>
      simp [addAll_cons, ih, add, List.filterMap_cons, Expectation.error?]

/-- A later error of evaluation takes the place of an earlier one. -/
theorem runtimeError_addAll :
    (e.addAll found).runtimeError =
      (found.filterMap Expectation.runtimeError?).getLast?.or e.runtimeError := by
  induction found generalizing e with
  | nil => rfl
  | cons p found ih =>
    obtain ⟨number, output | error | text⟩ := p
    · simp [addAll_cons, ih, add, List.filterMap_cons, Expectation.runtimeError?]
    · simp [addAll_cons, ih, add, List.filterMap_cons, Expectation.runtimeError?]
    · rw [addAll_cons, ih, List.filterMap_cons, Expectation.runtimeError?, List.getLast?_cons]
      cases (found.filterMap Expectation.runtimeError?).getLast? <;> rfl

/-- Each expectation counts once. -/
theorem count_addAll : (e.addAll found).count = e.count + found.length := by
  induction found generalizing e with
  | nil => rfl
  | cons p found ih =>
    obtain ⟨number, output | error | runtimeError⟩ := p <;>
      simp only [addAll_cons, ih, add, List.length_cons] <;> omega

end AddAll

/-- The exit code fits the errors, unless both kinds are expected. -/
structure ExitFits (e : Expectations) : Prop where
  error : e.errors ≠ [] → e.runtimeError = none → e.exitCode = 65
  runtimeError : e.errors = [] → e.runtimeError ≠ none → e.exitCode = 70
  neither : e.errors = [] → e.runtimeError = none → e.exitCode = 0

/-- An expectation sets the exit code of its kind. -/
theorem ExitFits.add {e : Expectations} (h : e.ExitFits) (number : Nat) (found : Expectation) :
    (e.add number found).ExitFits := by
  -- A line of output leaves the exit code alone; an error takes it over, and so does an error of
  -- evaluation.
  cases found with
  | output text => exact ⟨h.error, h.runtimeError, h.neither⟩
  | error text =>
    have herrors : (e.add number (.error text)).errors ≠ [] :=
      List.append_ne_nil_of_right_ne_nil _ (List.cons_ne_nil text [])
    exact ⟨fun _ _ => rfl, fun hnil => absurd hnil herrors, fun hnil => absurd hnil herrors⟩
  | runtimeError text => exact ⟨fun _ => nofun, fun _ _ => rfl, fun _ => nofun⟩

/-- The exit code fits after any expectations. -/
theorem ExitFits.addAll {e : Expectations} (h : e.ExitFits) (found : List (Nat × Expectation)) :
    (e.addAll found).ExitFits := by
  induction found generalizing e with
  | nil => exact h
  | cons p found ih => exact ih (h.add p.1 p.2)

/-- Unless both kinds are expected, the exit code tells which kind is. -/
theorem ExitFits.exitCode_iff {e : Expectations} (h : e.ExitFits)
    (hkinds : e.errors = [] ∨ e.runtimeError = none) :
    (e.exitCode = 65 ↔ e.errors ≠ []) ∧ (e.exitCode = 70 ↔ e.runtimeError ≠ none) ∧
      (e.exitCode = 0 ↔ e.errors = [] ∧ e.runtimeError = none) := by
  by_cases herrors : e.errors = []
  · by_cases hruntime : e.runtimeError = none
    · simp [h.neither herrors hruntime, herrors, hruntime]
    · simp [h.runtimeError herrors hruntime, herrors, hruntime]
  · have hruntime := hkinds.resolve_left herrors
    simp [h.error herrors hruntime, herrors, hruntime]

/-- The expectations agree unless there are errors of both kinds. -/
theorem isContradictory_eq_false_iff {e : Expectations} :
    e.isContradictory = false ↔ e.errors = [] ∨ e.runtimeError = none := by
  simp [isContradictory, or_iff_not_imp_left]

end Expectations

/-! ## Reading lines -/

/-- What a line with its number expects. -/
def expected? : List UInt8 × Nat → Option (Nat × Expectation)
  | (line, number) => do
    let text ← decode? line
    let found ← Expectation.ofLine? number text.toList
    return (number, found)

/-- What the lines that are read expect, if the first line has the given number. -/
def annotations (number : Nat) (lines : List (List UInt8)) : List (Nat × Expectation) :=
  ((linesRead lines).zipIdx number).filterMap expected?

/-- How reading lines ends that come to the expectations `e`. -/
def ending (e : Expectations) (lines : List (List UInt8)) : Status :=
  match lines.find? (EndsReading ·) with
  | some line => if decode? line = none then .unreadable .invalidText else .nontest
  | none => if e.isContradictory then .contradictory else .test

section Lines

variable {e : Expectations} {number : Nat} {line : List UInt8} {rest : List (List UInt8)}

/-- Nothing is read from a line that ends the reading on. -/
theorem annotations_of_ends (h : EndsReading line) : annotations number (line :: rest) = [] := by
  rw [annotations, linesRead, List.takeWhile_cons_of_neg (by simpa using h)]
  rfl

/-- Any other line adds what it expects, if anything. -/
theorem annotations_of_not_ends (h : ¬EndsReading line) :
    annotations number (line :: rest) =
      (expected? (line, number)).toList ++ annotations (number + 1) rest := by
  rw [annotations, linesRead, List.takeWhile_cons_of_pos (by simpa using h), List.zipIdx_cons,
    List.filterMap_cons]
  cases expected? (line, number) <;> rfl

/-- The line that ends the reading says how. -/
theorem ending_of_ends (h : EndsReading line) :
    ending e (line :: rest) =
      if decode? line = none then .unreadable .invalidText else .nontest := by
  rw [ending, List.find?_cons_of_pos (by simpa using h)]

/-- Any other line does not. -/
theorem ending_of_not_ends (h : ¬EndsReading line) : ending e (line :: rest) = ending e rest := by
  rw [ending, List.find?_cons_of_neg (by simpa using h), ending]

end Lines

/-- Reading lines adds what each expects, up to the line where reading ends. -/
theorem readFrom_eq (e : Expectations) (number : Nat) (lines : List (List UInt8)) :
    readFrom e number lines =
      (e.addAll (annotations number lines),
        ending (e.addAll (annotations number lines)) lines) := by
  -- Each line changes what is expected and the number, so both are arbitrary in the induction.
  induction lines generalizing e number with
  | nil => rfl
  | cons line rest ih =>
    rw [readFrom]
    cases htext : decode? line with
    | none =>
      have hends := endsReading_of_none htext
      rw [annotations_of_ends hends, ending_of_ends hends, if_pos htext]
      rfl
    | some text =>
      have hiff := endsReading_iff_of_some htext
      dsimp only
      by_cases hmark : isNontest text.toList = true
      · have hends := hiff.mpr hmark
        rw [if_pos hmark, annotations_of_ends hends, ending_of_ends hends,
          if_neg (by simp [htext])]
        rfl
      · have hgoes := mt hiff.mp hmark
        have hexpected : expected? (line, number) =
            (Expectation.ofLine? number text.toList).map (number, ·) := by
          rw [expected?, htext, Option.map_eq_bind]
          rfl
        rw [if_neg hmark, annotations_of_not_ends hgoes, ending_of_not_ends hgoes, hexpected]
        cases Expectation.ofLine? number text.toList with
        | none => exact ih e (number + 1)
        | some found => exact ih (e.add number found) (number + 1)

/-! ## Which lines give what -/

/-- Where each member that is kept has the number of what it was made from, the numbers still
increase. -/
theorem pairwise_filterMap_fst {α β : Type} {f : α → Option (Nat × β)} {number : α → Nat}
    (hf : ∀ a b, f a = some b → b.1 = number a) {xs : List α}
    (h : (xs.map number).Pairwise (· < ·)) : ((xs.filterMap f).map Prod.fst).Pairwise (· < ·) := by
  rw [List.pairwise_map] at h ⊢
  refine h.filterMap f fun a a' hlt b hb b' hb' => ?_
  rwa [hf a b hb, hf a' b' hb']

/-- What a line expects is read off its text, under its number. -/
theorem expected?_eq_some_iff {line : List UInt8} {n number : Nat} {found : Expectation} :
    expected? (line, n) = some (number, found) ↔
      n = number ∧ ∃ text, decode? line = some text ∧
        Expectation.ofLine? n text.toList = some found := by
  simp only [expected?, Option.bind_eq_bind, Option.bind_eq_some_iff, Option.pure_def,
    Option.some.injEq, Prod.mk.injEq]
  constructor
  · rintro ⟨text, htext, _, hfound, hnumber, rfl⟩
    exact ⟨hnumber, text, htext, hfound⟩
  · rintro ⟨hnumber, text, htext, hfound⟩
    exact ⟨text, htext, found, hfound, hnumber, rfl⟩

/-- Expectations come in the order of their lines, and no line has two. -/
theorem annotations_increasing (number : Nat) (lines : List (List UInt8)) :
    ((annotations number lines).map Prod.fst).Pairwise (· < ·) := by
  refine pairwise_filterMap_fst (fun p q hq => (expected?_eq_some_iff.mp hq).1.symm) ?_
  rw [List.zipIdx_map_snd]
  exact List.pairwise_lt_range'

/-- A line has at most one expectation. -/
theorem length_annotations_le (number : Nat) (lines : List (List UInt8)) :
    (annotations number lines).length ≤ lines.length :=
  calc (annotations number lines).length
      ≤ ((linesRead lines).zipIdx number).length := List.length_filterMap_le _ _
    _ = (linesRead lines).length := List.length_zipIdx
    _ ≤ lines.length := (List.takeWhile_sublist _).length_le

/-- The expectations of a file are those of its lines that count. -/
theorem mem_annotations_iff {bytes : List UInt8} {number : Nat} {found : Expectation} :
    (number, found) ∈ annotations 1 (Text.byteLines bytes) ↔
      Counts (Text.byteLines bytes) number found := by
  -- The forms are stated for lines, and no line of a file holds a line feed.
  have hread {line : List UInt8} {n : Nat} {text : String}
      (hmem : (line, n) ∈ (linesRead (Text.byteLines bytes)).zipIdx 1)
      (htext : decode? line = some text) :
      Expectation.ofLine? n text.toList = some found ↔ Expects n text.toList found := by
    have hline : line ∈ Text.byteLines bytes :=
      (List.takeWhile_sublist _).subset (List.fst_mem_of_mem_zipIdx hmem)
    exact ofLine?_eq_some_iff (Text.newline_notMem_of_mem_byteLines hline htext)
  rw [annotations, List.mem_filterMap]
  constructor
  · rintro ⟨⟨line, n⟩, hmem, hexpected⟩
    obtain ⟨rfl, text, htext, hfound⟩ := expected?_eq_some_iff.mp hexpected
    exact ⟨line, text, hmem, htext, (hread hmem htext).mp hfound⟩
  · rintro ⟨line, text, hmem, htext, hfound⟩
    exact ⟨(line, number), hmem,
      expected?_eq_some_iff.mpr ⟨rfl, text, htext, (hread hmem htext).mpr hfound⟩⟩

/-! ## How reading ends -/

/-- A sample that is read to its end is a test unless it expects errors of both kinds. -/
theorem isTest_ending_of_find?_eq_none {e : Expectations} {lines : List (List UInt8)}
    (h : lines.find? (EndsReading ·) = none) :
    (ending e lines).isTest = .ok (!e.isContradictory) := by
  rw [ending, h]
  cases e.isContradictory <;> rfl

/-- A sample that is not read to its end is no test, or cannot be read. -/
theorem isTest_ending_of_find?_eq_some {e : Expectations} {lines : List (List UInt8)}
    {line : List UInt8} (h : lines.find? (EndsReading ·) = some line) :
    (ending e lines).isTest = if decode? line = none then .error .invalidText else .ok false := by
  rw [ending, h]
  dsimp only
  split <;> rfl

/-- A file is a test if no line ends the reading and its expectations agree. -/
theorem isTest_ending_eq_ok_true_iff {e : Expectations} {lines : List (List UInt8)} :
    (ending e lines).isTest = .ok true ↔
      (∀ line ∈ lines, ¬EndsReading line) ∧ (e.errors = [] ∨ e.runtimeError = none) := by
  have hnone : lines.find? (EndsReading ·) = none ↔ ∀ line ∈ lines, ¬EndsReading line := by simp
  rw [← hnone, ← Expectations.isContradictory_eq_false_iff]
  -- A line that ends the reading makes the file no test or unreadable, whatever is expected.
  cases hfind : lines.find? (EndsReading ·) with
  | none => simp [isTest_ending_of_find?_eq_none hfind]
  | some line =>
    rw [isTest_ending_of_find?_eq_some hfind]
    split <;> simp

/-- Where errors of both kinds are expected, a sample is no test however reading ends. -/
theorem isTest_ending_of_both {e : Expectations} (lines : List (List UInt8))
    (h : ¬(e.errors = [] ∨ e.runtimeError = none)) :
    (ending e lines).isTest = .ok false ∨ (ending e lines).isTest = .error .invalidText := by
  have hboth : e.isContradictory = true := by
    rwa [← Expectations.isContradictory_eq_false_iff, Bool.not_eq_false] at h
  cases hfind : lines.find? (EndsReading ·) with
  | none =>
    rw [isTest_ending_of_find?_eq_none hfind, hboth]
    exact .inl rfl
  | some line =>
    rw [isTest_ending_of_find?_eq_some hfind]
    split
    · exact .inr rfl
    · exact .inl rfl

/-- A file cannot be read if a line that is no text comes before any mark. -/
theorem isTest_ending_eq_error_iff {e : Expectations} {lines : List (List UInt8)}
    {error : FileError} :
    (ending e lines).isTest = .error error ↔ error = .invalidText ∧
      ∃ line, lines.find? (EndsReading ·) = some line ∧ decode? line = none := by
  cases hfind : lines.find? (EndsReading ·) with
  | none => simp [isTest_ending_of_find?_eq_none hfind]
  | some line =>
    rw [isTest_ending_of_find?_eq_some hfind]
    split
    · next hnone => simp [hnone, eq_comm]
    · next hsome => simp [hsome]

/-- The lines of a sample expect what is `counted`, with the number of the line. Reading the sample
gives `e` for them, and then whether the sample is a test. -/
structure Coherent (lines : List (List UInt8)) (counted : List (Nat × Expectation))
    (e : Expectations) (isTest : Except FileError Bool) : Prop where
  /-- Each line that is read is counted for what it expects, and no other line is. -/
  mem_counted_iff : ∀ number found, (number, found) ∈ counted ↔ Counts lines number found
  /-- No line is counted twice. -/
  increasing : (counted.map Prod.fst).Pairwise (· < ·)
  /-- The lines of output are expected in their order, with the numbers of the lines that expect
  them. -/
  outputs : e.outputs = counted.filterMap Expectation.output?
  outputs_increasing : (e.outputs.map Prod.fst).Pairwise (· < ·)
  mem_outputs_iff : ∀ number text, (number, text) ∈ e.outputs ↔ Counts lines number (.output text)
  /-- So are the errors before evaluation. -/
  errors : e.errors = counted.filterMap Expectation.error?
  /-- Of the errors of evaluation the last one is expected. -/
  runtimeError : e.runtimeError = (counted.filterMap Expectation.runtimeError?).getLast?
  /-- All of them count, also the earlier ones. -/
  count : e.count = e.outputs.length + e.errors.length +
    (counted.filterMap Expectation.runtimeError?).length
  /-- Their number is one of 32 bits if that of the lines is. -/
  fits : lines.length < 0x100000000 → e.count < 0x100000000
  /-- A test does not expect errors of both kinds, and the exit code tells the kind. -/
  test : isTest = .ok true → (e.errors = [] ∨ e.runtimeError = none) ∧
    (e.exitCode = 65 ↔ e.errors ≠ []) ∧ (e.exitCode = 70 ↔ e.runtimeError ≠ none) ∧
    (e.exitCode = 0 ↔ e.errors = [] ∧ e.runtimeError = none)
  /-- A sample that expects errors of both kinds is no test, if it can be read. -/
  contradictory : e.errors ≠ [] → e.runtimeError ≠ none →
    isTest = .ok false ∨ isTest = .error .invalidText
  /-- A sample is a test if it is read to its end and does not expect errors of both kinds. -/
  test_iff : isTest = .ok true ↔
    (∀ line ∈ lines, ¬EndsReading line) ∧ (e.errors = [] ∨ e.runtimeError = none)
  /-- It cannot be read if the first line where reading ends is no text. -/
  unreadable_iff : ∀ error, isTest = .error error ↔ error = .invalidText ∧
    ∃ line, lines.find? (EndsReading ·) = some line ∧ decode? line = none

/-- Whatever a file holds, what is read of it as a sample is coherent. -/
theorem read_coherent (bytes : List UInt8) :
    ∃ counted, Coherent (Text.byteLines bytes) counted (read (.ok bytes)).1
      (read (.ok bytes)).2.isTest := by
  have hempty : ({} : Expectations).ExitFits := ⟨nofun, nofun, fun _ _ => rfl⟩
  have hmem := @mem_annotations_iff bytes
  have hincreasing := annotations_increasing 1 (Text.byteLines bytes)
  have hlength := length_annotations_le 1 (Text.byteLines bytes)
  rw [read, readFrom_eq]
  -- Only the equations of the fields are needed from here on, not how the result came about.
  generalize Text.byteLines bytes = lines at hmem hincreasing hlength ⊢
  generalize annotations 1 lines = counted at hmem hincreasing hlength ⊢
  have houtputs := Expectations.outputs_addAll {} counted
  have herrors := Expectations.errors_addAll {} counted
  have hruntime := Expectations.runtimeError_addAll {} counted
  have hcount := Expectations.count_addAll {} counted
  have hexit := hempty.addAll counted
  generalize ({} : Expectations).addAll counted = e at houtputs herrors hruntime hcount hexit ⊢
  rw [List.nil_append] at houtputs herrors
  rw [Option.or_none] at hruntime
  rw [Nat.zero_add] at hcount
  have hkinds := hcount
  rw [Expectation.length_eq, ← houtputs, ← herrors] at hkinds
  refine ⟨counted, ?_⟩
  constructor
  case mem_counted_iff => exact @hmem
  case increasing => exact hincreasing
  case outputs => exact houtputs
  case outputs_increasing =>
    rw [houtputs]
    exact pairwise_filterMap_fst (fun _ _ => Expectation.fst_of_output?) hincreasing
  case mem_outputs_iff =>
    intro number text
    rw [houtputs, Expectation.mem_filterMap_output?, hmem]
  case errors => exact herrors
  case runtimeError => exact hruntime
  case count => exact hkinds
  case fits => exact (hcount.trans_le hlength).trans_lt
  case test =>
    intro htest
    have hone := (isTest_ending_eq_ok_true_iff.mp htest).2
    exact ⟨hone, hexit.exitCode_iff hone⟩
  case contradictory =>
    exact fun herrors hruntimeError =>
      isTest_ending_of_both lines (not_or.mpr ⟨herrors, hruntimeError⟩)
  case test_iff => exact isTest_ending_eq_ok_true_iff
  case unreadable_iff => exact fun _ => isTest_ending_eq_error_iff

/-- In a sample that expects errors of both kinds a later line may be no text. Then the sample is
not passed over as no test. -/
theorem unreadable_behind_both_kinds :
    read (.ok ("// Error a\n// expect runtime error: b\n".toList.map (·.toNat.toUInt8) ++ [0xFF])) =
        ({ errors := ["[line 1] Error a"], runtimeError := some "[line 2] Error: b", exitCode := 70,
           count := 2 }, .unreadable .invalidText) ∧
      (Status.unreadable .invalidText).isTest ≠ .ok false := by
  exact ⟨by decide, nofun⟩

end LoxCalc.Sample
