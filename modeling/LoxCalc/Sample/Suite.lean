import LoxCalc.Sample.Verdict

/-!
# Suites of samples

A suite runs its samples in order, shows its progress, lists the failures of every sample that fails
and ends with a summary. It stops at the first sample that cannot be read or run; what has been
counted and shown by then stands. A filter leaves samples out as if they were not there.

Progress is shown on one line that later output takes the place of. A run of the samples is
therefore a sequence of writes: lines, and clearings of the last line.
-/

namespace LoxCalc.Sample

/-! ## Writing to a terminal -/

/-- A write to a terminal. -/
inductive Write where
  /-- A text and a line end. -/
  | line (text : String)
  /-- The last line is blanked, and output goes on there. -/
  | clearLast
  deriving DecidableEq

/-- What is sent to the terminal for a write. A clearing moves up a line, to its start, erases it,
and comes back to it from below. -/
def Write.text : Write → String
  | .line text => text ++ "\n"
  | .clearLast => "\x1b[1A\r\x1b[2K\x1b[1B\x1b[1A"

/-- What is sent to the terminal for a sequence of writes. -/
def writesText (writes : List Write) : String :=
  String.join (writes.map Write.text)

/-! ## Running the samples -/

/-- How many samples passed, failed and were skipped, and how many expectations were checked. -/
structure Tally where
  passed : Nat := 0
  failed : Nat := 0
  skipped : Nat := 0
  expectations : Nat := 0
  deriving DecidableEq

/-- The progress line shown while the sample at `path` is under way. -/
def Tally.progress (t : Tally) (path : String) : String :=
  "Passed: " ++ t.passed.repr ++ " Failed: " ++ t.failed.repr ++ " Skipped: " ++ t.skipped.repr
    ++ " (" ++ path ++ ")"

/-- The line that ends a suite. -/
def Tally.summary (t : Tally) : String :=
  if t.failed = 0 then
    "All " ++ t.passed.repr ++ " tests passed (" ++ t.expectations.repr ++ " expectations)."
  else t.passed.repr ++ " tests passed. " ++ t.failed.repr ++ " tests failed."

/-- What is shown about a sample that expects errors of both kinds. -/
def contradictionNotice (path : String) : String :=
  "TEST ERROR: " ++ path ++ "\n\tCannot expect both compile and runtime errors."

/-- What is written about a sample that failed; it ends with a line for the progress to take. -/
def failureWrites (path : String) (failures : List Failure) : List Write :=
  [.clearLast, .line ("FAIL: " ++ path), .line ""]
    ++ failures.map (fun f => .line ("\t" ++ f.message))
    ++ [.line "", .line ""]

/-- A sample to be run: its path, its path below the directory of the samples, and what the file
holds. -/
structure Case where
  path : String
  relative : String
  content : Except FileError (List UInt8)

/-- Whether a filter admits a sample: its path below the directory begins with the filter. -/
def Case.isSelected (c : Case) : Option String → Bool
  | some filter => filter.toList.isPrefixOf c.relative.toList
  | none => true

/-- How far a suite has come: what was written, what was counted, and why it stopped if it did. -/
structure Progress where
  writes : List Write
  tally : Tally
  error : Option FileError

/-- What a suite comes to: why it stopped, or whether no sample failed. -/
def Progress.result (p : Progress) : Except FileError Bool :=
  match p.error with
  | some e => .error e
  | none => .ok (p.tally.failed == 0)

/-- Runs one sample, given how to execute a program. -/
def runCase (execute : String → Except FileError Execution) (t : Tally) (c : Case) : Progress :=
  let start := [Write.clearLast, .line (t.progress c.path)]
  match read c.content with
  | (_, .unreadable e) => ⟨start, t, some e⟩
  | (_, .nontest) => ⟨start, { t with skipped := t.skipped + 1 }, none⟩
  | (_, .contradictory) =>
    ⟨start ++ [.line (contradictionNotice c.path)], { t with skipped := t.skipped + 1 }, none⟩
  | (e, .test) =>
    let t := { t with expectations := t.expectations + e.count }
    match execute c.path with
    | .error error => ⟨start, t, some error⟩
    | .ok x =>
      let failures := verdict e x
      if failures.isEmpty then ⟨start, { t with passed := t.passed + 1 }, none⟩
      else ⟨start ++ failureWrites c.path failures, { t with failed := t.failed + 1 }, none⟩

/-- Runs the samples that the filter admits, one after another, until one cannot be read or run. -/
def runCases (execute : String → Except FileError Execution) (filter : Option String)
    (t : Tally) : List Case → Progress
  | [] => ⟨[], t, none⟩
  | c :: rest =>
    if c.isSelected filter then
      let first := runCase execute t c
      match first.error with
      | some _ => first
      | none =>
        let others := runCases execute filter first.tally rest
        { others with writes := first.writes ++ others.writes }
    else runCases execute filter t rest

/-- Runs a suite of samples. -/
def runSuite (execute : String → Except FileError Execution) (filter : Option String)
    (cases : List Case) : Progress :=
  let progress := runCases execute filter {} cases
  let ending := match progress.error with
    | some _ => []
    | none => [Write.clearLast, .line progress.tally.summary]
  { progress with writes := .line "" :: progress.writes ++ ending }

end LoxCalc.Sample
