import LoxCalc.Proofs.Sample.Coherence
import LoxCalc.Proofs.Sample.Screen
import Mathlib

/-!
# What a suite counts

A suite with a program that can be run ends without an error exactly if every sample that the filter
admits can be read. Then each of them has passed, failed or been skipped, and what is counted does
not depend on the order of the samples (`tallyOf`). Otherwise it stops at the first sample that
cannot be read, with what the samples before it count. A filter is no more than a choice of samples
(`suite_accounted`).

Samples are run one after another until one has an error, so that running more of them goes on from
where running the first ones ended (`Progress.andThen`, `runCases_append`). A sample that can be
read adds its own numbers to those counted before (`runCase_of_isReadable`), and all samples add up
(`runCases_of_isReadable`).
-/

namespace LoxCalc.Sample

namespace Case

/-- Whether a sample is a test, if it can be read. -/
def isTest (c : Case) : Except FileError Bool :=
  (read c.content).2.isTest

/-- A sample can be read. -/
def IsReadable (c : Case) : Prop :=
  ∃ isTest, c.isTest = .ok isTest

/-- How many expectations a sample has. -/
def expectations (c : Case) : Nat :=
  (read c.content).1.count

/-- How many lines a sample has, if it is there. -/
def lineCount (c : Case) : Nat :=
  match c.content with
  | .ok bytes => (Text.byteLines bytes).length
  | .error _ => 0

/-- A line has at most one expectation. -/
theorem expectations_le_lineCount (c : Case) : c.expectations ≤ c.lineCount := by
  unfold expectations lineCount read
  cases c.content with
  | error e => exact Nat.le_refl 0
  | ok bytes =>
    have hlength := length_annotations_le 1 (Text.byteLines bytes)
    dsimp only
    rw [readFrom_eq, Expectations.count_addAll]
    simpa using hlength

/-- The path of a sample below the directory begins with the filter, if there is one. -/
def Matches (filter : Option String) (c : Case) : Prop :=
  ∀ beginning, filter = some beginning → beginning.toList <+: c.relative.toList

/-- The filter is compared as a beginning. -/
theorem isSelected_iff {filter : Option String} {c : Case} :
    c.isSelected filter = true ↔ c.Matches filter := by
  cases filter <;> simp [isSelected, Matches]

/-- Whether a sample matches can be computed. -/
instance (filter : Option String) : DecidablePred (Matches filter) := fun _ =>
  decidable_of_iff _ isSelected_iff

end Case

/-- The selected samples are those that match the filter. -/
theorem selected_eq_filter (filter : Option String) (cases : List Case) :
    selected filter cases = cases.filter (·.Matches filter) :=
  List.filter_congr fun c _ => by simp [← Case.isSelected_iff]

/-- A suite whose program can be run. -/
def suite (run : String → Execution) (filter : Option String) (cases : List Case) : Progress :=
  runSuite (fun path => .ok (run path)) filter cases

/-- The failures of a sample whose program can be run. -/
abbrev Case.failuresOf (run : String → Execution) (c : Case) : List Failure :=
  c.failures fun path => .ok (run path)

/-- What samples count for: tests without failures and with some, what is no test, and the
expectations of all tests. -/
def tallyOf (run : String → Execution) (cases : List Case) : Tally where
  passed := cases.countP fun c => c.isTest = .ok true ∧ c.failuresOf run = []
  failed := cases.countP fun c => c.isTest = .ok true ∧ c.failuresOf run ≠ []
  skipped := cases.countP (·.isTest = .ok false)
  expectations := ((cases.filter (·.isTest ≠ .ok false)).map Case.expectations).sum

/-! ## Numbers -/

namespace Tally

/-- The numbers of two runs together. -/
def plus (t t' : Tally) : Tally :=
  ⟨t.passed + t'.passed, t.failed + t'.failed, t.skipped + t'.skipped,
    t.expectations + t'.expectations⟩

/-- Numbers can be added in any grouping. -/
theorem plus_assoc (t t' t'' : Tally) : (t.plus t').plus t'' = t.plus (t'.plus t'') := by
  simp [plus, Nat.add_assoc]

/-- Nothing counted yet makes no difference. -/
theorem zero_plus (t : Tally) : ({} : Tally).plus t = t := by
  simp [plus]

/-- How many samples have been counted. -/
def total (t : Tally) : Nat :=
  t.passed + t.failed + t.skipped

end Tally

section Counts

variable (run : String → Execution)

/-- The samples of two lists count for what each list counts. -/
theorem tallyOf_append (cases cases' : List Case) :
    tallyOf run (cases ++ cases') = (tallyOf run cases).plus (tallyOf run cases') := by
  simp [tallyOf, Tally.plus]

/-- The order of the samples makes no difference. -/
theorem tallyOf_perm {cases cases' : List Case} (h : cases.Perm cases') :
    tallyOf run cases = tallyOf run cases' := by
  simp only [tallyOf, h.countP_eq, ((h.filter _).map Case.expectations).sum_nat]

variable {run} {t : Tally} {c : Case}

/-- A sample that can be read is run without an error, and counts for what it is. -/
theorem runCase_of_isReadable (h : c.IsReadable) :
    (runCase (fun path => .ok (run path)) t c).error = none ∧
      (runCase (fun path => .ok (run path)) t c).tally = t.plus (tallyOf run [c]) := by
  obtain ⟨isTest, htest⟩ := h
  unfold runCase tallyOf Case.failuresOf Case.failures Case.expectations
  unfold Case.isTest at htest ⊢
  rcases hread : read c.content with ⟨e, status⟩
  -- What a sample is decides which of the four numbers it adds to.
  cases status with
  | unreadable error => simp [hread, Status.isTest] at htest
  | nontest => simp [hread, Status.isTest, Tally.plus]
  | contradictory => simp [hread, Status.isTest, Tally.plus]
  | test =>
    by_cases hpass : verdict e (run c.path) = [] <;>
      simp [hread, hpass, Status.isTest, Tally.plus]

/-- A sample that cannot be read is an error, and counts for nothing. -/
theorem runCase_of_isTest_eq_error {execute : String → Except FileError Execution}
    {error : FileError} (h : c.isTest = .error error) :
    (runCase execute t c).error = some error ∧ (runCase execute t c).tally = t := by
  unfold runCase
  unfold Case.isTest at h
  rcases hread : read c.content with ⟨e, status⟩
  cases status <;> simp_all [Status.isTest]

/-- Every sample that can be read counts once. -/
theorem total_tallyOf {cases : List Case} (h : ∀ c ∈ cases, c.IsReadable) :
    (tallyOf run cases).passed + (tallyOf run cases).failed + (tallyOf run cases).skipped =
      cases.length := by
  induction cases with
  | nil => rfl
  | cons c cases ih =>
    obtain ⟨⟨isTest, hc⟩, hcases⟩ := List.forall_mem_cons.mp h
    -- A sample is a test or not, and a test has failures or not.
    have hone : (tallyOf run [c]).passed + (tallyOf run [c]).failed + (tallyOf run [c]).skipped =
        1 := by
      unfold tallyOf
      cases isTest <;> by_cases hpass : c.failuresOf run = [] <;> simp [hc, hpass]
    have hrest := ih hcases
    rw [← List.singleton_append, tallyOf_append, List.length_append, List.length_singleton]
    simp only [Tally.plus]
    omega

end Counts

/-! ## One sample after another -/

/-- What was done first and, unless it ended with an error, what is done then with its numbers. -/
def Progress.andThen (first : Progress) (next : Tally → Progress) : Progress :=
  match first.error with
  | some _ => first
  | none => { next first.tally with writes := first.writes ++ (next first.tally).writes }

section Runs

variable {execute : String → Except FileError Execution} {first : Progress}
  {next : Tally → Progress}

/-- Behind an error nothing is done. -/
theorem Progress.andThen_of_error {error : FileError} (h : first.error = some error) :
    first.andThen next = first := by
  rw [andThen, h]

/-- Without an error the writes go on, and the rest is for what comes then. -/
theorem Progress.andThen_of_none (h : first.error = none) :
    first.andThen next =
      { next first.tally with writes := first.writes ++ (next first.tally).writes } := by
  rw [andThen, h]

/-- Three runs one after another can be grouped either way. -/
theorem Progress.andThen_assoc (first : Progress) (next last : Tally → Progress) :
    (first.andThen next).andThen last = first.andThen fun t => (next t).andThen last := by
  cases hfirst : first.error with
  | some error => simp only [andThen_of_error hfirst]
  | none =>
    cases hnext : (next first.tally).error with
    | some error => simp [andThen, hfirst, hnext]
    | none => simp [andThen, hfirst, hnext, List.append_assoc]

/-- Running samples is running the first one and then the others. -/
theorem runCases_cons (t : Tally) (c : Case) (cases : List Case) :
    runCases execute none t (c :: cases) =
      (runCase execute t c).andThen fun t => runCases execute none t cases := by
  have hselected : c.isSelected none = true := rfl
  rw [runCases, if_pos hselected]
  cases herror : (runCase execute t c).error <;> simp [Progress.andThen, herror]

/-- Running more samples goes on from where running the first ones ended. -/
theorem runCases_append (t : Tally) (cases cases' : List Case) :
    runCases execute none t (cases ++ cases') =
      (runCases execute none t cases).andThen fun t => runCases execute none t cases' := by
  induction cases generalizing t with
  | nil => rfl
  | cons c cases ih => simp only [List.cons_append, runCases_cons, ih, Progress.andThen_assoc]

/-- Samples that can be read are all run, and their numbers add up. -/
theorem runCases_of_isReadable {run : String → Execution} {cases : List Case}
    (h : ∀ c ∈ cases, c.IsReadable) (t : Tally) :
    (runCases (fun path => .ok (run path)) none t cases).error = none ∧
      (runCases (fun path => .ok (run path)) none t cases).tally =
        t.plus (tallyOf run cases) := by
  -- Each sample goes on with what was counted before it, so this is arbitrary in the induction.
  induction cases generalizing t with
  | nil => exact ⟨rfl, rfl⟩
  | cons c cases ih =>
    obtain ⟨hc, hcases⟩ := List.forall_mem_cons.mp h
    obtain ⟨herror, htally⟩ := @runCase_of_isReadable run t c hc
    obtain ⟨herror', htally'⟩ := ih hcases (runCase (fun path => .ok (run path)) t c).tally
    rw [runCases_cons, Progress.andThen_of_none herror]
    refine ⟨herror', htally'.trans ?_⟩
    rw [htally, Tally.plus_assoc, ← tallyOf_append, List.singleton_append]

/-- Running samples stops at one that cannot be read, with what the samples before it count. -/
theorem runCases_of_isTest_eq_error {t : Tally} {before behind : List Case} {c : Case}
    {error : FileError} (h : c.isTest = .error error) :
    (runCases execute none t (before ++ c :: behind)).tally =
        (runCases execute none t before).tally ∧
      (runCases execute none t (before ++ c :: behind)).error =
        some ((runCases execute none t before).error.getD error) := by
  rw [runCases_append]
  -- An earlier error ends the suite before the sample is opened.
  cases hbefore : (runCases execute none t before).error with
  | some earlier => simp [Progress.andThen_of_error hbefore, hbefore]
  | none =>
    obtain ⟨herror, htally⟩ :=
      @runCase_of_isTest_eq_error (runCases execute none t before).tally c execute error h
    simp [Progress.andThen_of_none hbefore, runCases_cons, Progress.andThen_of_error herror, herror,
      htally]

/-- Samples are all run exactly if they can all be read. -/
theorem error_runCases_eq_none_iff {run : String → Execution} {t : Tally} {cases : List Case} :
    (runCases (fun path => .ok (run path)) none t cases).error = none ↔
      ∀ c ∈ cases, c.IsReadable := by
  refine ⟨fun h c hc => ?_, fun h => (runCases_of_isReadable h t).1⟩
  cases htest : c.isTest with
  | ok isTest => exact ⟨isTest, htest⟩
  | error error =>
    obtain ⟨before, behind, rfl⟩ := List.append_of_mem hc
    rw [(runCases_of_isTest_eq_error htest).2] at h
    cases h

end Runs

/-! ## How much is counted -/

section Fits

variable {execute : String → Except FileError Execution}

/-- A sample counts once at most, and its expectations are not more than its lines. -/
theorem runCase_le (t : Tally) (c : Case) :
    (runCase execute t c).tally.total ≤ t.total + 1 ∧
      (runCase execute t c).tally.expectations ≤ t.expectations + c.lineCount := by
  have hle := c.expectations_le_lineCount
  unfold Case.expectations at hle
  unfold runCase Tally.total
  rcases hread : read c.content with ⟨e, status⟩
  rw [hread] at hle
  -- Only a test that is executed adds expectations, and one that has an error then is not counted
  -- itself.
  cases status with
  | unreadable error => constructor <;> dsimp only <;> omega
  | nontest => constructor <;> dsimp only <;> omega
  | contradictory => constructor <;> dsimp only <;> omega
  | test =>
    cases execute c.path with
    | error error => constructor <;> dsimp only at hle ⊢ <;> omega
    | ok x =>
      dsimp only at hle ⊢
      split <;> constructor <;> dsimp only <;> omega

/-- What goes on from a run counts no more than both together. -/
theorem Progress.andThen_le {first : Progress} {next : Tally → Progress} {t : Tally}
    {k m k' m' : Nat}
    (hfirst : first.tally.total ≤ t.total + k ∧ first.tally.expectations ≤ t.expectations + m)
    (hnext : (next first.tally).tally.total ≤ first.tally.total + k' ∧
      (next first.tally).tally.expectations ≤ first.tally.expectations + m') :
    (first.andThen next).tally.total ≤ t.total + (k + k') ∧
      (first.andThen next).tally.expectations ≤ t.expectations + (m + m') := by
  cases herror : first.error with
  | some error =>
    rw [andThen_of_error herror]
    omega
  | none =>
    rw [andThen_of_none herror]
    dsimp only
    omega

/-- Samples count once each at most, and their expectations are not more than their lines, whether
all are run or not. -/
theorem runCases_le (filter : Option String) (t : Tally) (cases : List Case) :
    (runCases execute filter t cases).tally.total ≤ t.total + (selected filter cases).length ∧
      (runCases execute filter t cases).tally.expectations ≤
        t.expectations + ((selected filter cases).map Case.lineCount).sum := by
  rw [runCases_eq_filter]
  generalize selected filter cases = cases
  induction cases generalizing t with
  | nil => exact ⟨Nat.le_refl _, Nat.le_refl _⟩
  | cons c cases ih =>
    rw [runCases_cons, List.length_cons, List.map_cons, List.sum_cons, Nat.add_comm cases.length]
    exact Progress.andThen_le (runCase_le t c) (ih _)

end Fits

/-! ## Suites -/

/-- A suite has a result if there was no error, which is whether none failed. -/
theorem Progress.result_eq_ok_iff {p : Progress} {passed : Bool} :
    p.result = .ok passed ↔ p.error = none ∧ (p.tally.failed == 0) = passed := by
  unfold result
  cases p.error <;> simp

/-- An error is the result. -/
theorem Progress.result_of_error {p : Progress} {error : FileError} (h : p.error = some error) :
    p.result = .error error := by
  rw [result, h]

/-- Without an error the result is whether none failed. -/
theorem Progress.result_of_none {p : Progress} (h : p.error = none) :
    p.result = .ok (p.tally.failed == 0) := by
  rw [result, h]

section Suites

variable {run : String → Execution} {cases : List Case}

/-- A filter leaves samples out as if they were not there. -/
theorem suite_eq_selected (filter : Option String) :
    suite run filter cases = suite run none (selected filter cases) := by
  unfold suite runSuite
  simp only [runCases_eq_filter _ filter]

/-- If all samples can be read, what is counted is what they count for. -/
theorem tally_suite (h : ∀ c ∈ cases, c.IsReadable) :
    (suite run none cases).tally = tallyOf run cases :=
  (runCases_of_isReadable h {}).2.trans (Tally.zero_plus _)

/-- A suite passes if every sample can be read and none fails. -/
theorem result_suite_eq_ok_iff {passed : Bool} :
    (suite run none cases).result = .ok passed ↔
      (∀ c ∈ cases, c.IsReadable) ∧ ((tallyOf run cases).failed == 0) = passed := by
  have herror : (suite run none cases).error = none ↔ ∀ c ∈ cases, c.IsReadable :=
    error_runCases_eq_none_iff
  rw [Progress.result_eq_ok_iff, herror]
  exact and_congr_right fun h => by rw [tally_suite h]

/-- A suite comes to a sample that cannot be read if it comes to an end with the samples before it,
and counts no more than these. -/
theorem suite_of_isTest_eq_error {before behind : List Case} {c : Case} {error : FileError}
    (h : c.isTest = .error error) :
    (suite run none (before ++ c :: behind)).tally = (suite run none before).tally ∧
      (suite run none (before ++ c :: behind)).result =
        (suite run none before).result.bind fun _ => .error error := by
  have hruns := @runCases_of_isTest_eq_error (fun path => .ok (run path)) {} before behind c error h
  have herror : (suite run none (before ++ c :: behind)).error =
      some ((suite run none before).error.getD error) := hruns.2
  refine ⟨hruns.1, ?_⟩
  rw [Progress.result_of_error herror]
  -- An earlier error is the result already.
  cases hbefore : (suite run none before).error with
  | none =>
    rw [Progress.result_of_none hbefore]
    rfl
  | some earlier =>
    rw [Progress.result_of_error hbefore]
    rfl

/-- What a suite with a program that can be run counts, of the samples that its filter admits. -/
structure SuiteAccounted (run : String → Execution) (filter : Option String) (cases : List Case) :
    Prop where
  /-- These are the samples whose path below the directory begins with the filter. -/
  selected_eq : selected filter cases = cases.filter (·.Matches filter)
  /-- The suite ends without an error exactly if these can all be read. -/
  ok_iff : (∃ passed, (suite run filter cases).result = .ok passed) ↔
    ∀ c ∈ selected filter cases, c.IsReadable
  /-- Then each of them counts once, for what it is, and the suite has passed if none failed. -/
  total : ∀ passed, (suite run filter cases).result = .ok passed →
    (suite run filter cases).tally = tallyOf run (selected filter cases) ∧
    (suite run filter cases).tally.passed + (suite run filter cases).tally.failed +
      (suite run filter cases).tally.skipped = (selected filter cases).length ∧
    (passed = true ↔ (suite run filter cases).tally.failed = 0)
  /-- Numbers of 32 bits hold what is counted, of fewer than `2 ^ 32` samples with fewer lines. -/
  fits : ((selected filter cases).length < 0x100000000 →
      (suite run filter cases).tally.total < 0x100000000) ∧
    (((selected filter cases).map Case.lineCount).sum < 0x100000000 →
      (suite run filter cases).tally.expectations < 0x100000000)
  /-- In any other order the samples give the same. -/
  order : ∀ passed cases', (suite run filter cases).result = .ok passed → cases'.Perm cases →
    (suite run filter cases').result = .ok passed ∧
    (suite run filter cases').tally = (suite run filter cases).tally
  /-- A sample that cannot be read is the error that the suite ends with, unless there is an earlier
  one, and only the samples before it count. -/
  unreadable : ∀ before c behind error, selected filter cases = before ++ c :: behind →
    c.isTest = .error error →
    (suite run filter cases).tally = (suite run none before).tally ∧
    (suite run filter cases).result =
      ((suite run none before).result.bind fun _ => .error error) ∧
    ((∀ earlier ∈ before, earlier.IsReadable) →
      (suite run filter cases).result = .error error ∧
      (suite run filter cases).tally = tallyOf run before)
  /-- A suite of these alone gives the same, and writes the same, without a filter. -/
  filtered : suite run filter cases = suite run none (selected filter cases)

/-- Whatever the samples are, whatever the filter and whatever the program gives, a suite accounts
for the samples. -/
theorem suite_accounted (run : String → Execution) (filter : Option String) (cases : List Case) :
    SuiteAccounted run filter cases := by
  have hfiltered := @suite_eq_selected run cases filter
  constructor
  case selected_eq => exact selected_eq_filter filter cases
  case ok_iff =>
    simp only [hfiltered, result_suite_eq_ok_iff, exists_and_left, exists_eq', and_true]
  case total =>
    intro passed hok
    rw [hfiltered, result_suite_eq_ok_iff] at hok
    obtain ⟨hreadable, rfl⟩ := hok
    rw [hfiltered, tally_suite hreadable]
    exact ⟨rfl, total_tallyOf hreadable, beq_iff_eq⟩
  case fits =>
    have hle := @runCases_le (fun path => .ok (run path)) filter {} cases
    have hnone : ({} : Tally).total = 0 ∧ ({} : Tally).expectations = 0 := ⟨rfl, rfl⟩
    unfold suite runSuite
    dsimp only
    omega
  case order =>
    intro passed cases' hok hperm
    have hselected : (selected filter cases').Perm (selected filter cases) := hperm.filter _
    rw [hfiltered, result_suite_eq_ok_iff] at hok
    have hreadable' : ∀ c ∈ selected filter cases', c.IsReadable :=
      fun c hc => hok.1 c (hselected.mem_iff.mp hc)
    rw [hfiltered, suite_eq_selected, tally_suite hok.1, tally_suite hreadable',
      result_suite_eq_ok_iff, tallyOf_perm run hselected]
    exact ⟨⟨hreadable', hok.2⟩, rfl⟩
  case unreadable =>
    intro before c behind error hsplit herror
    obtain ⟨htally, hresult⟩ := @suite_of_isTest_eq_error run before behind c error herror
    rw [hfiltered, hsplit, htally, hresult]
    refine ⟨rfl, rfl, fun hreadable => ⟨?_, tally_suite hreadable⟩⟩
    obtain ⟨passed, hok⟩ : ∃ passed, (suite run none before).result = .ok passed :=
      ⟨_, result_suite_eq_ok_iff.mpr ⟨hreadable, rfl⟩⟩
    rw [hok]
    rfl
  case filtered => exact hfiltered

end Suites

end LoxCalc.Sample
