import LoxCalc.Proofs.Sample.Pattern
import LoxCalc.Sample.Verdict
import Mathlib.Data.List.Perm.Basic

/-!
# When a run has no failures

A run passes exactly where it meets what is expected (`Meets`): the exit code, the lines of output,
and the errors. Errors before evaluation are counted and not ordered, so that neither the order of
the lines of error output nor that of the expected errors matters (`verdict_exact`).

Matching strikes out an equal expected error for each line, and nothing is left over on either side
exactly where the errors that the lines show are the expected ones in some order
(`matchErrors_eq_nil_iff`).
-/

namespace LoxCalc.Sample

/-! ## Errors before evaluation -/

/-- The line of error output shows the error. -/
def Shows (line error : String) : Prop :=
  Pattern.FoundIn Pattern.IsShown line.toList error.toList

/-- What is read off a line is the error that it shows. -/
theorem shownError?_eq_some_iff {line error : String} :
    shownError? line = some error ↔ Shows line error := by
  rw [shownError?, Option.map_eq_some_iff, Shows, ← Pattern.search_shownError_eq_some_iff]
  constructor
  · rintro ⟨found, hfound, rfl⟩
    rwa [String.toList_ofList]
  · intro h
    exact ⟨error.toList, h, String.ofList_toList⟩

/-- An empty line shows nothing. -/
theorem Shows.ne_empty {line error : String} (h : Shows line error) : line ≠ "" := by
  rintro rfl
  have hnone : shownError? "" = none := by decide
  rw [← shownError?_eq_some_iff, hnone] at h
  cases h

/-- The lines show the errors: every line that is not empty shows one, and together these are the
errors in some order. -/
def ShowErrors (lines errors : List String) : Prop :=
  ∃ shown, List.Forall₂ Shows (lines.filter (· ≠ "")) shown ∧ shown.Perm errors

namespace ShowErrors

variable {line error : String} {lines lines' errors errors' : List String}

/-- No lines show no errors. -/
theorem nil_iff : ShowErrors [] errors ↔ errors = [] := by
  simp [ShowErrors]

/-- An empty line shows nothing. -/
theorem cons_empty_iff : ShowErrors ("" :: lines) errors ↔ ShowErrors lines errors := by
  simp [ShowErrors]

/-- Any other line shows one of the errors, and the lines behind it show the others. -/
theorem cons_iff (h : line ≠ "") :
    ShowErrors (line :: lines) errors ↔
      ∃ error, Shows line error ∧ error ∈ errors ∧ ShowErrors lines (errors.erase error) := by
  simp only [ShowErrors, List.filter_cons, h, ne_eq, not_false_eq_true, decide_true, if_true,
    List.forall₂_cons_left_iff]
  constructor
  · -- The errors that the lines show are the expected ones in some order, so that the first line's
    -- can be taken out.
    rintro ⟨_, ⟨error, shown, hline, hlines, rfl⟩, hperm⟩
    obtain ⟨hmem, herase⟩ := List.cons_perm_iff_perm_erase.mp hperm
    exact ⟨error, hline, hmem, shown, hlines, herase⟩
  · rintro ⟨error, hline, hmem, shown, hlines, herase⟩
    exact ⟨error :: shown, ⟨error, shown, hline, hlines, rfl⟩,
      List.cons_perm_iff_perm_erase.mpr ⟨hmem, herase⟩⟩

/-- Neither the order of the lines nor that of the errors matters. -/
theorem perm (h : ShowErrors lines errors) (hlines : lines'.Perm lines)
    (herrors : errors'.Perm errors) : ShowErrors lines' errors' := by
  obtain ⟨shown, hshows, hperm⟩ := h
  obtain ⟨shown', hshows', hperm'⟩ := List.perm_comp_forall₂ (hlines.filter _) hshows
  exact ⟨shown', hshows', hperm'.trans (hperm.trans herrors.symm)⟩

end ShowErrors

/-- Lines and expected errors match exactly where the lines show the errors. -/
theorem matchErrors_eq_nil_iff {errors lines : List String} :
    matchErrors errors lines = ([], []) ↔ ShowErrors lines errors := by
  induction lines generalizing errors with
  | nil => simp [matchErrors, ShowErrors.nil_iff]
  | cons line rest ih =>
    rw [matchErrors]
    cases hshown : shownError? line with
    | some error =>
      -- The line shows this error and no other, which is struck out if it is expected.
      have hshows := shownError?_eq_some_iff.mp hshown
      simp only [ShowErrors.cons_iff hshows.ne_empty, ← shownError?_eq_some_iff, hshown,
        Option.some.injEq, exists_eq_left', ← ih]
      split
      · next hmem => simp [hmem]
      · next hmem => simp [hmem]
    | none =>
      -- Only an empty line may show nothing.
      by_cases hline : line = ""
      · subst hline
        rw [ShowErrors.cons_empty_iff, ← ih]
        simp [Prod.ext_iff]
      · simp [ShowErrors.cons_iff hline, ← shownError?_eq_some_iff, hshown, hline]

/-- No failure is listed if the lines show the errors that are expected. -/
theorem errorFailures_eq_nil_iff {errors lines : List String} :
    errorFailures errors lines = [] ↔ ShowErrors lines errors := by
  rw [← matchErrors_eq_nil_iff, errorFailures]
  obtain ⟨unexpected, missing⟩ := matchErrors errors lines
  cases unexpected with
  | nil => simp
  | cons failure unexpected => simp [listedErrors]

/-! ## The other expectations -/

/-- No failure is listed if the first line is the error that is expected. -/
theorem runtimeErrorFailures_eq_nil_iff {expected : String} {lines : List String} :
    runtimeErrorFailures expected lines = [] ↔ lines.head? = some expected := by
  cases lines with
  | nil => simp [runtimeErrorFailures]
  | cons line lines => simp [runtimeErrorFailures]

/-- No failure is listed if the exit code is the one that is expected. -/
theorem exitFailures_eq_nil_iff {expected : Int} {got : Option Int} :
    exitFailures expected got = [] ↔ got = some expected := by
  simp [exitFailures]

/-- No failure is listed if the lines are those that are expected. -/
theorem outputFailures_eq_nil_iff {outputs : List (Nat × String)} {lines : List String} :
    outputFailures outputs lines = [] ↔ lines = outputs.map Prod.snd := by
  -- Lines are compared one by one, and what one list has more of is a failure.
  induction outputs generalizing lines with
  | nil => simp [outputFailures]
  | cons expected outputs ih =>
    cases lines with
    | nil => simp [outputFailures]
    | cons line lines =>
      rw [outputFailures]
      split
      · next h => simp [ih, h]
      · next h => simp [Ne.symm h]

/-! ## Verdicts -/

/-- A run meets what is expected of it. -/
structure Meets (outputs : List (Nat × String)) (errors : List String)
    (runtimeError : Option String) (exitCode : Int) (x : Execution) : Prop where
  /-- The exit code is the expected one. -/
  exit : x.exit = some exitCode
  /-- The lines of output are the expected ones, in their order. -/
  output : Text.lines x.stdout = outputs.map Prod.snd
  /-- An expected error of evaluation is the first line of the error output. -/
  first : ∀ expected, runtimeError = some expected → (Text.lines x.stderr).head? = some expected
  /-- If none is expected, the lines of the error output show the expected errors. -/
  shown : runtimeError = none → ShowErrors (Text.lines x.stderr) errors

/-- No failure is listed if the execution meets what is expected. -/
theorem failures_eq_nil_iff {outputs : List (Nat × String)} {errors : List String}
    {runtimeError : Option String} {exitCode : Int} {x : Execution} :
    failures outputs errors runtimeError exitCode x = [] ↔
      Meets outputs errors runtimeError exitCode x := by
  rw [failures.eq_def, List.append_eq_nil_iff, List.append_eq_nil_iff, exitFailures_eq_nil_iff,
    outputFailures_eq_nil_iff]
  cases runtimeError with
  | some expected =>
    rw [runtimeErrorFailures_eq_nil_iff]
    constructor
    · rintro ⟨⟨herror, hexit⟩, houtput⟩
      exact ⟨hexit, houtput, fun _ heq => Option.some.inj heq ▸ herror, nofun⟩
    · rintro ⟨hexit, houtput, herror, -⟩
      exact ⟨⟨herror expected rfl, hexit⟩, houtput⟩
  | none =>
    rw [errorFailures_eq_nil_iff]
    constructor
    · rintro ⟨⟨herrors, hexit⟩, houtput⟩
      exact ⟨hexit, houtput, nofun, fun _ => herrors⟩
    · rintro ⟨hexit, houtput, -, herrors⟩
      exact ⟨⟨herrors rfl, hexit⟩, houtput⟩

/-- Where no error of evaluation is expected, a run meets what is expected whatever the order of the
lines of its error output and of the expected errors. -/
theorem Meets.perm {outputs : List (Nat × String)} {errors errors' : List String} {exitCode : Int}
    {x x' : Execution} (h : Meets outputs errors none exitCode x) (herrors : errors'.Perm errors)
    (hlines : (Text.lines x'.stderr).Perm (Text.lines x.stderr)) (hstdout : x'.stdout = x.stdout)
    (hexit : x'.exit = x.exit) : Meets outputs errors' none exitCode x' where
  exit := hexit ▸ h.exit
  output := hstdout ▸ h.output
  first := nofun
  shown := fun _ => (h.shown rfl).perm hlines herrors

/-- A run has no failures if and only if it meets what is expected. Where no error of evaluation is
expected, the order of the lines of error output and that of the expected errors do not matter. -/
theorem verdict_exact (outputs : List (Nat × String)) (errors : List String)
    (runtimeError : Option String) (exitCode : Int) (x : Execution) :
    (failures outputs errors runtimeError exitCode x = [] ↔
      Meets outputs errors runtimeError exitCode x) ∧
    ∀ errors' x', errors'.Perm errors → (Text.lines x'.stderr).Perm (Text.lines x.stderr) →
      x'.stdout = x.stdout → x'.exit = x.exit →
      (failures outputs errors' none exitCode x' = [] ↔
        failures outputs errors none exitCode x = []) := by
  -- What an execution meets does not depend on the order, and the list of failures is empty just
  -- then.
  refine ⟨failures_eq_nil_iff, fun errors' x' herrors hlines hstdout hexit => ?_⟩
  rw [failures_eq_nil_iff, failures_eq_nil_iff]
  exact ⟨fun h => h.perm herrors.symm hlines.symm hstdout.symm hexit.symm,
    fun h => h.perm herrors hlines hstdout hexit⟩

end LoxCalc.Sample
