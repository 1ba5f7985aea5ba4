import LoxCalc.Proofs.Sample.Annotation
import LoxCalc.Sample.Suite

/-!
# What a suite leaves on the terminal

A terminal of any size holds lines. A text is put below them, and a clearing takes the last of them
away (`Write.replay`). While a suite runs, the last line is meant to be its progress, or a blank
line that holds its place; whatever stands above stays.

What one sample adds above the last line is `Case.remains` (`dropLast_replay_runCase`), and what a
suite adds is what its samples add, one after another (`dropLast_replay_runCases`), with the summary
behind it (`screen_runSuite`). A sample should add its block and nothing else. It does so unless it
expects errors of both kinds, where the notice stands in the place of the progress, or its path
takes more than one line, where only the last of them is cleared (`remains_eq_blocks_iff`).
-/

namespace LoxCalc.Sample

/-! ## The terminal -/

/-- The lines that a text takes. -/
def rows (text : String) : List String :=
  (text.toList.splitOn '\n').map String.ofList

/-- The lines of the terminal after a write. Behind a clearing, the next text takes the place of the
line that was the last. -/
def Write.replay (screen : List String) : Write → List String
  | .line text => screen ++ rows text
  | .clearLast => screen.dropLast

/-- The lines of the terminal after a sequence of writes. -/
def replay (screen : List String) (writes : List Write) : List String :=
  writes.foldl Write.replay screen

/-- The lines that a sequence of writes leaves on an empty terminal. -/
def screen (writes : List Write) : List String :=
  replay [] writes

/-- Without writes the screen stays. -/
@[simp]
theorem replay_nil (s : List String) : replay s [] = s :=
  rfl

/-- A line is put below the others, with its own line ends in it. -/
@[simp]
theorem replay_line (s : List String) (text : String) (writes : List Write) :
    replay s (.line text :: writes) = replay (s ++ rows text) writes :=
  rfl

/-- A clearing takes the last line away. -/
@[simp]
theorem replay_clearLast (s : List String) (writes : List Write) :
    replay s (.clearLast :: writes) = replay s.dropLast writes :=
  rfl

/-- Writes are carried out one after another. -/
theorem replay_append (s : List String) (writes writes' : List Write) :
    replay s (writes ++ writes') = replay (replay s writes) writes' :=
  List.foldl_append

/-- Lines alone are put below each other. -/
theorem replay_map_line (s texts : List String) :
    replay s (texts.map .line) = s ++ texts.flatMap rows := by
  induction texts generalizing s with
  | nil => simp
  | cons text texts ih => rw [List.map_cons, replay_line, ih, List.flatMap_cons, List.append_assoc]

/-- Every text takes up a row. -/
@[simp]
theorem rows_ne_nil (text : String) : rows text ≠ [] := by
  unfold rows
  simp [List.splitOn_ne_nil]

/-- A text without a line end takes up one row. -/
theorem rows_eq_singleton {text : String} (h : '\n' ∉ text.toList) : rows text = [text] := by
  rw [rows, List.splitOn_eq_singleton h, List.map_singleton, String.ofList_toList]

/-- The empty text takes up one row. -/
@[simp]
theorem rows_empty : rows "" = [""] :=
  rows_eq_singleton (by simp)

/-- The first line of a text begins as the text does, and is the whole text unless there is a line
end. -/
theorem rows_eq_cons {text : String} {c : Char} (hc : text.toList.head? = some c) (hne : c ≠ '\n') :
    ∃ row more, rows text = row :: more ∧ row.toList.head? = some c ∧
      (more = [] ↔ '\n' ∉ text.toList) := by
  -- The first row is what is before the first line end, or all of the text.
  by_cases hfeed : '\n' ∈ text.toList
  · obtain ⟨cs, rest, htext, hcs⟩ := List.eq_append_cons_of_mem hfeed
    have hrows : rows text = String.ofList cs :: rows (String.ofList rest) := by
      rw [rows, rows, htext, List.splitOn_append_cons_self_of_not_mem hcs, List.map_cons,
        String.toList_ofList]
    refine ⟨_, _, hrows, ?_, by simp [hfeed]⟩
    rw [htext] at hc
    cases cs with
    | nil => exact absurd (Option.some.inj hc).symm hne
    | cons c' cs => simpa using hc
  · exact ⟨text, [], rows_eq_singleton hfeed, hc, by simp [hfeed]⟩

/-! ## Texts of a suite -/

/-- A text that is not empty begins as before with more behind it. -/
theorem head?_toList_append {text : String} {c : Char} (h : text.toList.head? = some c)
    (more : String) : (text ++ more).toList.head? = some c := by
  rw [String.toList_append, List.head?_append, h, Option.some_or]

/-- A progress line begins with the first letter of its first word. -/
theorem Tally.head?_progress (t : Tally) (path : String) :
    (t.progress path).toList.head? = some 'P' := by
  have hword : "Passed: ".toList.head? = some 'P' := by decide
  unfold progress
  simp only [String.append_assoc]
  exact head?_toList_append hword _

/-- The notice of a contradiction begins with the first letter of its first word. -/
theorem head?_contradictionNotice (path : String) :
    (contradictionNotice path).toList.head? = some 'T' := by
  have hword : "TEST ERROR: ".toList.head? = some 'T' := by decide
  exact head?_toList_append (head?_toList_append hword _) _

/-- A number is written without a line end. -/
theorem newline_notMem_toDigits (n : Nat) : '\n' ∉ Nat.toDigits 10 n :=
  fun h => ((Pattern.isNumber_toDigits n).isLine _ h).1 rfl

/-- The progress takes as many lines as the path does. -/
theorem Tally.newline_mem_progress (t : Tally) (path : String) :
    '\n' ∈ (t.progress path).toList ↔ '\n' ∈ path.toList := by
  have hpassed : '\n' ∉ "Passed: ".toList := by decide
  have hfailed : '\n' ∉ " Failed: ".toList := by decide
  have hskipped : '\n' ∉ " Skipped: ".toList := by decide
  have hopen : '\n' ∉ " (".toList := by decide
  have hclose : '\n' ∉ ")".toList := by decide
  unfold progress
  simp only [String.toList_append, List.mem_append, Nat.toList_repr, newline_notMem_toDigits,
    hpassed, hfailed, hskipped, hopen, hclose, false_or, or_false]

/-- The summary takes up one row. -/
theorem Tally.rows_summary (t : Tally) : rows t.summary = [t.summary] := by
  apply rows_eq_singleton
  unfold summary
  split <;> simp [newline_notMem_toDigits]

/-! ## What a sample leaves -/

namespace Case

variable (execute : String → Except FileError Execution) (t : Tally) (c : Case)

/-- The sample expects errors of both kinds. -/
def IsContradictory : Prop :=
  (read c.content).2 = .contradictory

/-- Whether a sample contradicts itself can be computed. -/
instance : Decidable c.IsContradictory :=
  inferInstanceAs (Decidable (_ = _))

/-- The failures of a sample: none if it is not a test, or cannot be run. -/
def failures : List Failure :=
  match read c.content, execute c.path with
  | (e, .test), .ok x => verdict e x
  | _, _ => []

/-- The lines that tell the failures of a sample. -/
def failureBlock : List String :=
  if c.failures execute = [] then []
  else
    (["FAIL: " ++ c.path, ""] ++ (c.failures execute).map ("\t" ++ ·.message) ++ [""]).flatMap rows

/-- The lines that tell that a sample expects errors of both kinds. -/
def contradictionBlock : List String :=
  if c.IsContradictory then rows (contradictionNotice c.path) else []

/-- The lines that tell the result of a sample; there are none if it passed or was skipped. -/
def block : List String :=
  c.failureBlock execute ++ c.contradictionBlock

/-- The lines of the progress that are not cleared. -/
def stale : List String :=
  if c.IsContradictory then rows (t.progress c.path) else (rows (t.progress c.path)).dropLast

/-- The lines that a sample leaves above the last one, run when the given numbers were counted. -/
def remains : List String :=
  c.stale t ++ c.failureBlock execute ++ c.contradictionBlock.dropLast

end Case

section RunCase

variable {execute : String → Except FileError Execution} {t : Tally} {c : Case}

/-- What a sample that can be read and run writes behind its progress. -/
theorem runCase_writes_cases (h : (runCase execute t c).error = none) :
    ∃ more, (runCase execute t c).writes = [.clearLast, .line (t.progress c.path)] ++ more ∧
      ((¬c.IsContradictory ∧ c.failures execute = [] ∧ more = []) ∨
        (c.IsContradictory ∧ c.failures execute = [] ∧
          more = [.line (contradictionNotice c.path)]) ∨
        (¬c.IsContradictory ∧ c.failures execute ≠ [] ∧
          more = failureWrites c.path (c.failures execute))) := by
  unfold runCase at h ⊢
  unfold Case.IsContradictory Case.failures
  rcases hread : read c.content with ⟨e, status⟩
  -- A sample is contradictory, or is no test, or runs and passes or fails; the rest end with an
  -- error.
  cases status with
  | unreadable error => simp [hread] at h
  | nontest => simp
  | contradictory => simp
  | test =>
    cases hexecute : execute c.path with
    | error error => simp [hread, hexecute] at h
    | ok x =>
      by_cases hpass : verdict e x = [] <;> simp [hpass]

/-- A list of failures clears the progress, writes its lines and ends with an empty one. -/
theorem failureWrites_eq (path : String) (failures : List Failure) :
    failureWrites path failures =
      .clearLast :: (["FAIL: " ++ path, ""] ++ failures.map ("\t" ++ ·.message) ++ [""]).map .line
        ++ [.line ""] := by
  simp [failureWrites]

/-- A sample takes the place of the last line, and leaves a last line of its own. -/
theorem dropLast_replay_runCase (h : (runCase execute t c).error = none) (s : List String) :
    (replay s (runCase execute t c).writes).dropLast = s.dropLast ++ c.remains execute t := by
  obtain ⟨more, hwrites, hmore⟩ := runCase_writes_cases h
  rw [hwrites, List.cons_append, List.cons_append, replay_clearLast, replay_line, List.nil_append]
  unfold Case.remains Case.stale Case.failureBlock Case.contradictionBlock
  rcases hmore with ⟨hc, hf, rfl⟩ | ⟨hc, hf, rfl⟩ | ⟨hc, hf, rfl⟩
  · simp [hc, hf, List.dropLast_append_of_ne_nil]
  · simp [hc, hf, List.dropLast_append_of_ne_nil]
  · rw [failureWrites_eq, List.cons_append, replay_clearLast, replay_append, replay_map_line]
    -- The blank line that the failures end with is the last line now.
    rw [replay_line, replay_nil, rows_empty, List.dropLast_concat, if_neg hc, if_neg hf, if_neg hc,
      List.dropLast_append_of_ne_nil (rows_ne_nil _), List.dropLast_nil, List.append_nil,
      List.append_assoc]

end RunCase

/-! ## What a suite leaves -/

section RunSuite

/-- The samples that a filter admits, in their order. -/
def selected (filter : Option String) (cases : List Case) : List Case :=
  cases.filter (·.isSelected filter)

/-- A filter leaves samples out as if they were not there. -/
theorem runCases_eq_filter (execute : String → Except FileError Execution)
    (filter : Option String) (t : Tally) (cases : List Case) :
    runCases execute filter t cases = runCases execute none t (selected filter cases) := by
  unfold selected
  induction cases generalizing t with
  | nil => rfl
  | cons c rest ih =>
    have hnone : c.isSelected none = true := rfl
    by_cases hc : c.isSelected filter = true
    · simp only [List.filter_cons, runCases, hc, hnone, if_true, ih]
    · simp only [List.filter_cons, runCases, hc, if_false, ih, Bool.false_eq_true]

variable {execute : String → Except FileError Execution} {filter : Option String}

/-- Where samples are run to the end, each was, and the writes are theirs in order. -/
theorem runCases_cons_writes {t : Tally} {c : Case} {rest : List Case}
    (h : (runCases execute none t (c :: rest)).error = none) :
    (runCase execute t c).error = none ∧
      (runCases execute none (runCase execute t c).tally rest).error = none ∧
      (runCases execute none t (c :: rest)).writes =
        (runCase execute t c).writes
          ++ (runCases execute none (runCase execute t c).tally rest).writes := by
  have hselected : c.isSelected none = true := rfl
  rw [runCases, if_pos hselected] at h ⊢
  cases herror : (runCase execute t c).error with
  | some error => simp [herror] at h
  | none => simpa [herror] using h

/-- The lines that samples leave above the last one. -/
def remains (execute : String → Except FileError Execution) : Tally → List Case → List String
  | _, [] => []
  | t, c :: rest => c.remains execute t ++ remains execute (runCase execute t c).tally rest

/-- Samples take the place of the last line, and leave a last line of their own. -/
theorem dropLast_replay_runCases {t : Tally} {cases : List Case}
    (h : (runCases execute none t cases).error = none) (s : List String) :
    (replay s (runCases execute none t cases).writes).dropLast =
      s.dropLast ++ remains execute t cases := by
  induction cases generalizing t s with
  | nil => simp [runCases, remains]
  | cons c rest ih =>
    obtain ⟨hfirst, hrest, hwrites⟩ := runCases_cons_writes h
    rw [hwrites, replay_append, ih hrest, dropLast_replay_runCase hfirst, remains,
      List.append_assoc]

/-- What a suite leaves on the terminal. -/
theorem screen_runSuite {cases : List Case} (h : (runSuite execute filter cases).error = none) :
    screen (runSuite execute filter cases).writes =
      remains execute {} (selected filter cases)
        ++ [(runSuite execute filter cases).tally.summary] := by
  unfold runSuite at h ⊢
  simp only [runCases_eq_filter execute filter] at h ⊢
  rw [screen, h, List.cons_append, replay_line, replay_append, replay_clearLast, replay_line,
    replay_nil, dropLast_replay_runCases h, Tally.rows_summary, rows_empty]
  rfl

end RunSuite

/-! ## Blocks and nothing else -/

section Blocks

variable (execute : String → Except FileError Execution)

/-- The first line of a block is not a progress. -/
theorem Case.head?_block (c : Case) :
    ∀ row ∈ (c.block execute).head?, row.toList.head? ≠ some 'P' := by
  unfold block failureBlock contradictionBlock
  -- A block begins with a notice, or with the heading of the failures, and neither looks like
  -- progress.
  split
  · split
    · obtain ⟨row, more, hrows, hrow, -⟩ :=
        rows_eq_cons (head?_contradictionNotice c.path) (by decide)
      simp [hrows, hrow]
    · simp
  · have hword : "FAIL: ".toList.head? = some 'F' := by decide
    obtain ⟨row, more, hrows, hrow, -⟩ :=
      rows_eq_cons (head?_toList_append hword c.path) (by decide)
    simp [hrows, hrow]

/-- No block begins as a progress line does. -/
theorem head?_blocks (cases : List Case) :
    ∀ row ∈ (cases.flatMap (·.block execute)).head?, row.toList.head? ≠ some 'P' := by
  induction cases with
  | nil => simp
  | cons c rest ih =>
    intro row hrow
    rw [List.flatMap_cons, List.head?_append, Option.mem_def, Option.or_eq_some_iff] at hrow
    rcases hrow with hrow | ⟨-, hrow⟩
    · exact c.head?_block execute row hrow
    · exact ih row hrow

/-- The whole progress of a sample is cleared, and it alone: the sample does not expect errors of
both kinds, and its path takes one line. -/
def Case.IsCleared (c : Case) : Prop :=
  ¬c.IsContradictory ∧ '\n' ∉ c.path.toList

/-- A progress that is not cleared keeps its first line. -/
theorem Case.stale_cases (t : Tally) (c : Case) :
    (c.IsCleared ∧ c.stale t = []) ∨
      (¬c.IsCleared ∧ ∃ row more, c.stale t = row :: more ∧ row.toList.head? = some 'P') := by
  obtain ⟨row, more, hrows, hrow, hmore⟩ := rows_eq_cons (t.head?_progress c.path) (by decide)
  rw [t.newline_mem_progress] at hmore
  unfold stale IsCleared
  -- A notice keeps all rows of the progress, and else only a path with a line end keeps some.
  by_cases hc : c.IsContradictory
  · exact .inr ⟨fun h => h.1 hc, row, more, by rw [if_pos hc, hrows], hrow⟩
  · rw [if_neg hc, hrows]
    by_cases hpath : '\n' ∈ c.path.toList
    · have hne : more ≠ [] := fun h => hmore.mp h hpath
      exact .inr ⟨fun h => h.2 hpath, row, more.dropLast, List.dropLast_cons_of_ne_nil hne, hrow⟩
    · rw [hmore.mpr hpath]
      exact .inl ⟨⟨hc, hpath⟩, rfl⟩

/-- Of a sample whose progress is cleared the block remains. -/
theorem Case.remains_of_isCleared {t : Tally} {c : Case} (h : c.IsCleared)
    (hstale : c.stale t = []) : c.remains execute t = c.block execute := by
  have hblock : c.contradictionBlock = [] := if_neg h.1
  rw [remains, block, hstale, hblock]
  rfl

/-- The samples leave their blocks and nothing else exactly if the progress of each is cleared. -/
theorem remains_eq_blocks_iff (t : Tally) (cases : List Case) :
    remains execute t cases = cases.flatMap (·.block execute) ↔ ∀ c ∈ cases, c.IsCleared := by
  induction cases generalizing t with
  | nil => simp [remains]
  | cons c rest ih =>
    rw [List.forall_mem_cons]
    rcases c.stale_cases t with ⟨hcleared, hstale⟩ | ⟨hcleared, row, more, hstale, hrow⟩
    · rw [remains, List.flatMap_cons, Case.remains_of_isCleared execute hcleared hstale,
        List.append_cancel_left_eq, ih]
      exact (and_iff_right hcleared).symm
    · -- The first line that stays is one that no block begins with.
      refine iff_of_false (fun h => ?_) (fun h => hcleared h.1)
      apply head?_blocks execute (c :: rest) row ?_ hrow
      rw [← h, remains, Case.remains, hstale]
      rfl

/-- Of the lines that a sample should leave, only the last one of the notice can be lost. -/
theorem blocks_sublist_remains (t : Tally) (cases : List Case) :
    (cases.flatMap fun c => c.failureBlock execute ++ c.contradictionBlock.dropLast).Sublist
      (remains execute t cases) := by
  induction cases generalizing t with
  | nil => exact List.Sublist.refl _
  | cons c rest ih =>
    rw [List.flatMap_cons, remains, Case.remains, List.append_assoc (c.stale t)]
    exact (List.sublist_append_right _ _).append (ih _)

end Blocks

/-- A suite that runs to its end leaves the blocks of its samples in order, the summary behind them
and nothing else, exactly if no sample that was selected expects errors of both kinds or has a path
of more than one line. In any case every failure is told in full with the summary behind it, and of
a notice no more than the last line is lost. -/
theorem screen_eq_blocks_iff {execute : String → Except FileError Execution}
    {filter : Option String} {cases : List Case}
    (h : (runSuite execute filter cases).error = none) :
    (screen (runSuite execute filter cases).writes =
        (selected filter cases).flatMap (·.block execute)
          ++ [(runSuite execute filter cases).tally.summary] ↔
      ∀ c ∈ selected filter cases, (read c.content).2 ≠ .contradictory ∧ '\n' ∉ c.path.toList) ∧
    ((selected filter cases).flatMap
          (fun c => c.failureBlock execute ++ c.contradictionBlock.dropLast)
        ++ [(runSuite execute filter cases).tally.summary]).Sublist
      (screen (runSuite execute filter cases).writes) := by
  -- What the screen shows is what remains of the samples, and then the summary.
  rw [screen_runSuite h]
  constructor
  · rw [List.append_cancel_right_eq]
    exact remains_eq_blocks_iff execute {} (selected filter cases)
  · have hblocks := blocks_sublist_remains execute {} (selected filter cases)
    exact hblocks.append (List.Sublist.refl _)

/-- A sample that fails, one that passes and one that is no test leave one block and the summary. -/
theorem screen_eq_blocks_three :
    let execute : String → Except FileError Execution := fun _ => .ok ⟨"", "", some 0⟩
    let cases : List Case :=
      [("a.lox", "// expect: 1"), ("b.lox", ""), ("c.lox", "// nontest")].map fun (name, text) =>
        ⟨"samples/" ++ name, name, .ok (text.toList.map (·.toNat.toUInt8))⟩
    (runSuite execute none cases).error = none ∧
      screen (runSuite execute none cases).writes =
        ["FAIL: samples/a.lox", "", "\tMissing expected output '1' on line 1.", "",
          "1 tests passed. 1 tests failed."] := by
  intro execute cases
  have herror : (runSuite execute none cases).error = none := by decide
  have hcleared : ∀ c ∈ selected none cases,
      (read c.content).2 ≠ .contradictory ∧ '\n' ∉ c.path.toList := by decide
  refine ⟨herror, ((screen_eq_blocks_iff herror).1.mpr hcleared).trans ?_⟩
  decide

/-- Of the notice on a sample the last line is lost, and the progress stays above it. -/
theorem screen_contradiction :
    let execute : String → Except FileError Execution := fun _ => .ok ⟨"", "", some 0⟩
    let text := "// Error a\n// expect runtime error: b\n"
    let c : Case := ⟨"samples/a.lox", "a.lox", .ok (text.toList.map (·.toNat.toUInt8))⟩
    c.block execute =
        ["TEST ERROR: samples/a.lox", "\tCannot expect both compile and runtime errors."] ∧
      (runSuite execute none [c]).error = none ∧
      screen (runSuite execute none [c]).writes =
        ["Passed: 0 Failed: 0 Skipped: 0 (samples/a.lox)", "TEST ERROR: samples/a.lox",
          "All 0 tests passed (0 expectations)."] := by
  decide

end LoxCalc.Sample
