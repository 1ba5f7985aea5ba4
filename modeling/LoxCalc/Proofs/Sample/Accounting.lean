import LoxCalc.Proofs.Sample.Verdict
import Mathlib.Data.List.Count

/-!
# Every error is accounted for once

What is reported of the error output is determined by counting (`errors_accounted`). A line is
unexpected where earlier lines show its error as often as it is expected, and an expected error is
missing where it occurs more often than the lines show it, the earliest occurrences being the ones
that were found.

Matching strikes out the first equal error for each line that shows one. So what it has left after
some lines is the expected errors less the shown ones, a difference of lists (`matchErrors_diff`),
and how often an error is left is a difference of counts.
-/

namespace LoxCalc.Sample

/-! ## Members by what stands before them -/

/-- The members of a list that pass a test, which also sees the members before them. -/
def keepBy {α : Type} (test : List α → α → Bool) (xs : List α) : List α :=
  (xs.zipIdx.filter fun (x, i) => test (xs.take i) x).map Prod.fst

/-- Of nothing, nothing is kept. -/
@[simp]
theorem keepBy_nil {α : Type} (test : List α → α → Bool) : keepBy test [] = [] := rfl

/-- Behind the first member, every test sees it. -/
theorem keepBy_cons {α : Type} (test : List α → α → Bool) (x : α) (xs : List α) :
    keepBy test (x :: xs) =
      (if test [] x then [x] else []) ++ keepBy (fun before => test (x :: before)) xs := by
  have htail : (((xs.zipIdx 1).filter fun (y, i) => test ((x :: xs).take i) y).map Prod.fst) =
      keepBy (fun before => test (x :: before)) xs := by
    rw [List.zipIdx_succ, List.filter_map, List.map_map]
    rfl
  rw [← htail, keepBy, List.zipIdx_cons, List.filter_cons]
  simp only [List.take_zero, Nat.zero_add]
  split <;> rfl

/-- What is kept is in the order of the list. -/
theorem keepBy_sublist {α : Type} (test : List α → α → Bool) (xs : List α) :
    (keepBy test xs).Sublist xs := by
  have hkept := (List.filter_sublist (p := fun p : α × Nat => test (xs.take p.2) p.1)
    (l := xs.zipIdx)).map Prod.fst
  rwa [List.zipIdx_map_fst] at hkept

/-! ## What is unexpected and what is missing -/

/-- A line shows an error if one is read off it. -/
theorem exists_shows_iff {line : String} :
    (∃ error, Shows line error) ↔ (shownError? line).isSome = true := by
  simp only [← shownError?_eq_some_iff, Option.isSome_iff_exists]

/-- Whether a line shows an error can be computed. -/
instance : DecidablePred fun line => ∃ error, Shows line error :=
  fun _ => decidable_of_iff _ exists_shows_iff.symm

/-- The errors that lines of error output show. -/
def shownErrors (lines : List String) : List String :=
  lines.filterMap shownError?

/-- A line behind others that show the errors `seen` is unexpected: it shows no error and is not
empty, or it shows one that the others show as often as it is expected. -/
def Unexpected (expected seen : List String) (line : String) : Prop :=
  (line ≠ "" ∧ ¬∃ error, Shows line error) ∨
    ∃ error, Shows line error ∧ expected.count error ≤ seen.count error

section Unexpected

variable {expected seen : List String} {line error : String}

/-- A line that shows an error is unexpected if as many lines before it show that error as are
expected. -/
theorem unexpected_of_eq_some (h : shownError? line = some error) :
    Unexpected expected seen line ↔ expected.count error ≤ seen.count error := by
  simp [Unexpected, ← shownError?_eq_some_iff, h]

/-- A line that shows none is unexpected unless it is empty. -/
theorem unexpected_of_eq_none (h : shownError? line = none) :
    Unexpected expected seen line ↔ line ≠ "" := by
  simp [Unexpected, ← shownError?_eq_some_iff, h]

/-- Whether a line is unexpected can be computed. -/
instance : DecidablePred (Unexpected expected seen) := fun line =>
  match h : shownError? line with
  | some _ => decidable_of_iff _ (unexpected_of_eq_some h).symm
  | none => decidable_of_iff _ (unexpected_of_eq_none h).symm

end Unexpected

/-- The unexpected lines of error output. -/
def unexpectedLines (expected lines : List String) : List String :=
  keepBy (fun before line => decide (Unexpected expected (shownErrors before) line)) lines

/-- The expected errors that stand behind as many equal ones as the lines show, or more. -/
def missingErrors (expected lines : List String) : List String :=
  keepBy (fun before error => decide ((shownErrors lines).count error ≤ before.count error))
    expected

/-- What is reported of an unexpected line. -/
def unexpectedFailure (line : String) : Failure :=
  if ∃ error, Shows line error then .unexpectedError line else .strayLine line

/-! ## What matching has left -/

/-- No lines show no errors. -/
@[simp]
theorem shownErrors_nil : shownErrors [] = [] := rfl

/-- The error that the first line shows comes first. -/
theorem shownErrors_cons_of_eq_some {line error : String} (h : shownError? line = some error)
    (lines : List String) : shownErrors (line :: lines) = error :: shownErrors lines :=
  List.filterMap_cons_some h

/-- A line that shows no error adds none. -/
theorem shownErrors_cons_of_eq_none {line : String} (h : shownError? line = none)
    (lines : List String) : shownErrors (line :: lines) = shownErrors lines :=
  List.filterMap_cons_none h

/-- Each line that shows an error shows the one of its place. -/
theorem forall₂_shownErrors (lines : List String) :
    List.Forall₂ Shows (lines.filter fun line => ∃ error, Shows line error)
      (shownErrors lines) := by
  induction lines with
  | nil => exact .nil
  | cons line lines ih =>
    cases hshown : shownError? line with
    | some error =>
      have hshows := shownError?_eq_some_iff.mp hshown
      rw [List.filter_cons, if_pos (decide_eq_true ⟨error, hshows⟩),
        shownErrors_cons_of_eq_some hshown]
      exact .cons hshows ih
    | none =>
      have hnone : ¬∃ error, Shows line error := by simp [exists_shows_iff, hshown]
      rw [List.filter_cons, decide_eq_false hnone, shownErrors_cons_of_eq_none hshown]
      exact ih

/-- A line that shows an error is unexpected if the error is not left over. -/
theorem unexpected_iff_not_mem_diff {expected seen : List String} {line error : String}
    (h : shownError? line = some error) :
    Unexpected expected seen line ↔ error ∉ expected.diff seen := by
  rw [unexpected_of_eq_some h, ← List.count_eq_zero, List.count_diff]
  omega

/-- Behind lines that show the errors `seen`, matching reports the unexpected lines and has left
what is expected less all that was shown. -/
theorem matchErrors_diff (expected seen lines : List String) :
    matchErrors (expected.diff seen) lines =
      ((keepBy (fun before line => decide (Unexpected expected (seen ++ shownErrors before) line))
        lines).map unexpectedFailure, expected.diff (seen ++ shownErrors lines)) := by
  induction lines generalizing seen with
  | nil => simp [matchErrors, shownErrors]
  | cons line lines ih =>
    rw [matchErrors, keepBy_cons]
    cases hshown : shownError? line with
    | some error =>
      have hseen (before : List String) : seen ++ shownErrors (line :: before) =
          (seen ++ [error]) ++ shownErrors before := by
        rw [shownErrors_cons_of_eq_some hshown, List.append_assoc, List.singleton_append]
      have hleft : expected.diff (seen ++ [error]) = (expected.diff seen).erase error := by
        rw [List.diff_append, List.diff_cons, List.diff_nil]
      have hunexpected : Unexpected expected (seen ++ shownErrors []) line ↔
          error ∉ expected.diff seen := by
        rw [shownErrors_nil, List.append_nil, unexpected_iff_not_mem_diff hshown]
      have hfailure : unexpectedFailure line = .unexpectedError line :=
        if_pos (exists_shows_iff.mpr (by rw [hshown]; rfl))
      have hrest := ih (seen ++ [error])
      rw [hleft] at hrest
      simp only [hseen, hunexpected]
      split
      · next hmem =>
        rw [hrest]
        simp [hmem]
      · next hmem =>
        -- An error that is not left over strikes out nothing.
        rw [List.erase_of_not_mem hmem] at hrest
        rw [hrest]
        simp [hmem, hfailure]
    | none =>
      have hfailure : unexpectedFailure line = .strayLine line :=
        if_neg (by simp [exists_shows_iff, hshown])
      have hempty : line.isEmpty = decide (line = "") := by
        rw [Bool.eq_iff_iff, String.isEmpty_iff, decide_eq_true_iff]
      simp only [ih, shownErrors_cons_of_eq_none hshown, unexpected_of_eq_none hshown, hempty]
      by_cases hline : line = ""
      · simp [hline]
      · simp [hline, hfailure]

/-- What is left of a list without the members of another: those behind as many equal ones as the
other has. -/
theorem diff_eq_keepBy (expected shown : List String) :
    expected.diff shown =
      keepBy (fun before error => decide (shown.count error ≤ before.count error)) expected := by
  induction expected generalizing shown with
  | nil => exact List.nil_diff shown
  | cons first expected ih =>
    -- Behind the first member, one fewer of the other list is to be struck out.
    have hcount (before : List String) (error : String) :
        (shown.erase first).count error ≤ before.count error ↔
          shown.count error ≤ (first :: before).count error := by
      rw [List.count_erase, List.count_cons]
      split <;> omega
    have hrest := ih (shown.erase first)
    simp only [hcount] at hrest
    rw [List.cons_diff, keepBy_cons, ← hrest]
    split
    · next hmem =>
      have hpos := List.count_pos_iff.mpr hmem
      rw [if_neg (by simpa using hpos.ne'), List.nil_append]
    · next hmem =>
      have hzero := List.count_eq_zero_of_not_mem hmem
      rw [if_pos (by simp [hzero]), List.erase_of_not_mem hmem, List.singleton_append]

/-- Matching reports the unexpected lines, and has left the missing errors. -/
theorem matchErrors_eq (expected lines : List String) :
    matchErrors expected lines =
      ((unexpectedLines expected lines).map unexpectedFailure, missingErrors expected lines) := by
  have hmatch := matchErrors_diff expected [] lines
  rw [List.diff_nil] at hmatch
  rw [hmatch, List.nil_append, diff_eq_keepBy]
  rfl

/-- An error is missing as often as it is expected more often than shown. -/
theorem count_missingErrors (expected lines : List String) (error : String) :
    (missingErrors expected lines).count error =
      expected.count error - (shownErrors lines).count error := by
  rw [missingErrors, ← diff_eq_keepBy, List.count_diff]

/-- What is reported of error output, whatever it is and whatever is expected: the first ten
unexpected lines in their order, how many more there are if there are more, and then the missing
errors, which are the later ones of those that are expected more often than shown. The number of
unexpected lines is a number of 32 bits with a sign if that of all lines is. -/
theorem errors_accounted (expected lines : List String) :
    (errorFailures expected lines).map Failure.message =
      (((unexpectedLines expected lines).take 10).map fun line =>
        if ∃ error, Shows line error then "Unexpected error:\n" ++ line
        else "Unexpected output on stderr:\n" ++ line) ++
      (if 10 < (unexpectedLines expected lines).length then
        ["(truncated " ++ ((unexpectedLines expected lines).length - 10).repr ++ " more...)"]
      else []) ++
      (missingErrors expected lines).map ("Missing expected error: " ++ ·) ∧
    (missingErrors expected lines).Sublist expected ∧
    (∀ error, (missingErrors expected lines).count error =
      expected.count error - (shownErrors lines).count error) ∧
    List.Forall₂ Shows (lines.filter fun line => ∃ error, Shows line error) (shownErrors lines) ∧
    (lines.length < 0x80000000 → (unexpectedLines expected lines).length < 0x80000000) := by
  -- Unexpected lines are lines, so that they can be counted in 32 bits with a sign if these can.
  refine ⟨?_, keepBy_sublist _ _, count_missingErrors expected lines, forall₂_shownErrors lines,
    (keepBy_sublist _ lines).length_le.trans_lt⟩
  have hmessage (line : String) : (unexpectedFailure line).message =
      if ∃ error, Shows line error then "Unexpected error:\n" ++ line
      else "Unexpected output on stderr:\n" ++ line := by
    unfold unexpectedFailure
    split <;> rfl
  rw [errorFailures, matchErrors_eq, listedErrors]
  simp only [List.map_append, ← List.map_take, List.map_map, List.length_map, apply_ite,
    Function.comp_def, hmessage]
  rfl

end LoxCalc.Sample
