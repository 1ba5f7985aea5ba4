import LoxCalc.Proofs.Sample.Annotation
import LoxCalc.Proofs.Sample.Verdict

/-!
# Samples that can pass

The run that gives line by line what a sample expects (`Expectations.reproduction`) passes exactly
where some run does, and this is where no expected error is the bare word Error
(`reproduction_passes_iff`). Annotations allow the bare word, but no line of error output shows it,
so that a sample with such an annotation fails whatever its program does (`bare_error_fails`).
-/

namespace LoxCalc.Sample

open Pattern

/-- Every error that lines show has the form of one. -/
theorem ShowErrors.isShown {lines errors : List String} (h : ShowErrors lines errors) :
    ∀ error ∈ errors, IsShown error.toList := by
  obtain ⟨shown, hshows, hperm⟩ := h
  have hforms : ∀ error ∈ shown, IsShown error.toList := by
    clear hperm
    generalize lines.filter (· ≠ "") = shownLines at hshows
    induction hshows with
    | nil => simp
    | cons hline _ ih => exact List.forall_mem_cons.mpr ⟨hline.hasForm, ih⟩
  exact fun error herror => hforms error (hperm.mem_iff.mpr herror)

/-- Errors of that form, written as lines, show themselves. -/
theorem ShowErrors.self {errors : List String} (h : ∀ error ∈ errors, IsShown error.toList) :
    ShowErrors errors errors := by
  have hshows : ∀ error ∈ errors, Shows error error :=
    fun error herror => FoundIn.self (h error herror)
  have hfilter : errors.filter (· ≠ "") = errors := by
    rw [List.filter_eq_self]
    exact fun error herror => decide_eq_true (hshows error herror).ne_empty
  refine ⟨errors, ?_, .refl errors⟩
  rw [hfilter]
  exact List.forall₂_same.mpr hshows

/-- Texts of one line are the lines of what is written. -/
theorem lines_unlines_of_isLine {texts : List String} (h : ∀ text ∈ texts, IsLine text.toList) :
    Text.lines (Text.unlines texts) = texts := by
  apply Text.lines_unlines
  · exact fun text htext hfeed => (h text htext _ hfeed).1 rfl
  · exact fun text htext hlast => (h text htext _ (List.mem_of_getLast? hlast)).2 rfl

namespace Expectations

/-- The lines of error output that are expected. -/
def errorLines (e : Expectations) : List String :=
  match e.runtimeError with
  | some error => [error]
  | none => e.errors

/-- The run that gives exactly what is expected, line by line. -/
def reproduction (e : Expectations) : Execution where
  stdout := Text.unlines (e.outputs.map Prod.snd)
  stderr := Text.unlines e.errorLines
  exit := some e.exitCode

/-- What is expected on error output is on one line each. -/
theorem Sound.isLine_errorLines {e : Expectations} (h : e.Sound) :
    ∀ line ∈ e.errorLines, IsLine line.toList := by
  rw [errorLines]
  cases herror : e.runtimeError with
  | some error => exact List.forall_mem_singleton.mpr (h.runtimeError error herror)
  | none => exact fun line hline => (h.errors line hline).isLine

/-- The reproduction passes if all expected errors can be shown. -/
theorem Sound.verdict_reproduction {e : Expectations} (h : e.Sound)
    (hshown : ∀ error ∈ e.errors, IsShown error.toList) : verdict e e.reproduction = [] := by
  have houtput : ∀ text ∈ e.outputs.map Prod.snd, IsLine text.toList :=
    List.forall_mem_map.mpr h.outputs
  have herrors : Text.lines e.reproduction.stderr = e.errorLines :=
    lines_unlines_of_isLine h.isLine_errorLines
  rw [verdict, failures_eq_nil_iff]
  refine ⟨rfl, lines_unlines_of_isLine houtput, fun error herror => ?_, fun hnone => ?_⟩
  · rw [herrors, errorLines, herror, List.head?_cons]
  · rw [herrors, errorLines, hnone]
    exact ShowErrors.self hshown

/-- Any run that passes shows all expected errors, if these are the errors to be shown. -/
theorem isShown_of_verdict_eq_nil {e : Expectations} (hkinds : e.isContradictory = false)
    {x : Execution} (h : verdict e x = []) : ∀ error ∈ e.errors, IsShown error.toList := by
  rw [verdict, failures_eq_nil_iff] at h
  cases herror : e.runtimeError with
  | none => exact (h.shown herror).isShown
  | some error =>
    -- Where an error of evaluation is expected there are no others.
    have hnil : e.errors = [] := by simpa [isContradictory, herror] using hkinds
    simp [hnil]

end Expectations

/-- For a sample without carriage returns that is a test, the run that gives exactly what is
expected passes if and only if no expected error is the bare word Error; and otherwise no run
passes. -/
theorem reproduction_passes_iff {bytes : List UInt8} {text : String} {e : Expectations}
    (hbytes : Text.Utf8.decode? bytes = some text) (hreturn : '\r' ∉ text.toList)
    (hread : read (.ok bytes) = (e, .test)) :
    (verdict e e.reproduction = [] ↔ ∀ error ∈ e.errors, ¬IsBare error.toList) ∧
    ((∃ x, verdict e x = []) ↔ ∀ error ∈ e.errors, ¬IsBare error.toList) := by
  have hsound := Expectations.sound_of_read_eq hbytes hreturn hread
  have hkinds := Expectations.isContradictory_of_readFrom_eq hread
  have hshown : (∀ error ∈ e.errors, IsShown error.toList) ↔
      ∀ error ∈ e.errors, ¬IsBare error.toList :=
    forall₂_congr fun error herror => (hsound.errors error herror).isShown_iff
  rw [← hshown]
  -- Showing all expected errors is enough for the reproduction, and needed for any run.
  have hpasses := hsound.verdict_reproduction
  refine ⟨⟨Expectations.isShown_of_verdict_eq_nil hkinds, hpasses⟩, ?_, fun h => ⟨_, hpasses h⟩⟩
  rintro ⟨x, hx⟩
  exact Expectations.isShown_of_verdict_eq_nil hkinds hx

/-- The sample `// Error!` passes with the line `[line 1] Error!` as its error output. -/
theorem reproduction_passes_exclaimed :
    let e : Expectations := { errors := ["[line 1] Error!"], exitCode := 65, count := 1 }
    read (.ok [0x2F, 0x2F, 0x20, 0x45, 0x72, 0x72, 0x6F, 0x72, 0x21]) = (e, .test) ∧
      e.reproduction = ⟨"", "[line 1] Error!\n", some 65⟩ ∧ verdict e e.reproduction = [] := by
  intro e
  have hbytes : Text.Utf8.decode? [0x2F, 0x2F, 0x20, 0x45, 0x72, 0x72, 0x6F, 0x72, 0x21] =
      some "// Error!" := by decide
  have hread : read (.ok [0x2F, 0x2F, 0x20, 0x45, 0x72, 0x72, 0x6F, 0x72, 0x21]) = (e, .test) := by
    decide
  refine ⟨hread, by decide, (reproduction_passes_iff hbytes (by decide) hread).1.mpr ?_⟩
  refine List.forall_mem_singleton.mpr fun ⟨digits, hdigits, hbare⟩ => ?_
  have hlocated : "[line 1] Error!".toList = located (Nat.toDigits 10 1) "Error!".toList := by
    decide
  rw [hlocated, located_inj (isNumber_toDigits 1) hdigits] at hbare
  exact absurd hbare.2 (by decide)

/-- The sample `// Error` fails even with the line `[line 1] Error` as its error output. -/
theorem bare_error_fails :
    let e : Expectations := { errors := ["[line 1] Error"], exitCode := 65, count := 1 }
    Text.Utf8.decode? [0x2F, 0x2F, 0x20, 0x45, 0x72, 0x72, 0x6F, 0x72, 0x0A] =
        some "// Error\n" ∧
      read (.ok [0x2F, 0x2F, 0x20, 0x45, 0x72, 0x72, 0x6F, 0x72, 0x0A]) = (e, .test) ∧
      e.reproduction = ⟨"", "[line 1] Error\n", some 65⟩ ∧
      verdict e e.reproduction =
        [.strayLine "[line 1] Error", .missingError "[line 1] Error"] := by
  decide

end LoxCalc.Sample
