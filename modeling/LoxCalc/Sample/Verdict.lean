import LoxCalc.Sample.Expectations

/-!
# The verdict on a sample

A sample is run and what the run gave is compared with what the sample expects: the errors, the exit
code, and the output line by line. The verdict is the list of all failures; it is empty if the run
was as expected. Each expected error answers for one line of the error output.
-/

namespace LoxCalc.Sample

/-- What a run gave. A run that was cut off has no exit code. -/
structure Execution where
  stdout : String
  stderr : String
  exit : Option Int
  deriving DecidableEq

/-- The execution with the given bytes on its two streams. -/
def Execution.ofBytes (stdout stderr : List UInt8) (exit : Option Int) : Execution :=
  ⟨Text.Utf8.decodeLossy stdout, Text.Utf8.decodeLossy stderr, exit⟩

/-- One way in which a run was not as expected. -/
inductive Failure where
  | wrongRuntimeError (expected got : String)
  | missingRuntimeError (expected : String)
  | unexpectedError (line : String)
  | strayLine (line : String)
  | truncated (more : Nat)
  | missingError (expected : String)
  | wrongExit (expected : Int) (got : Option Int)
  | surplusOutput (line : String)
  | wrongOutput (expected : String) (number : Nat) (got : String)
  | missingOutput (expected : String) (number : Nat)
  deriving DecidableEq

/-- The text of an exit code that may be missing. -/
def exitText : Option Int → String
  | some code => "Some(" ++ code.repr ++ ")"
  | none => "None"

/-- The wording of a failure. -/
def Failure.message : Failure → String
  | .wrongRuntimeError expected got =>
    "Expected runtime error '" ++ expected ++ "' and got:\n" ++ got
  | .missingRuntimeError expected => "Expected runtime error '" ++ expected ++ "' and got none."
  | .unexpectedError line => "Unexpected error:\n" ++ line
  | .strayLine line => "Unexpected output on stderr:\n" ++ line
  | .truncated more => "(truncated " ++ more.repr ++ " more...)"
  | .missingError expected => "Missing expected error: " ++ expected
  | .wrongExit expected got =>
    "Expected return code " ++ expected.repr ++ " and got " ++ exitText got ++ "."
  | .surplusOutput line => "Got output '" ++ line ++ "' when none was expected."
  | .wrongOutput expected number got =>
    "Expected output '" ++ expected ++ "' on line " ++ number.repr ++ " and got '" ++ got ++ "'."
  | .missingOutput expected number =>
    "Missing expected output '" ++ expected ++ "' on line " ++ number.repr ++ "."

/-- The error that a line of error output shows. -/
def shownError? (line : String) : Option String :=
  (Pattern.search Pattern.shownError line.toList).map String.ofList

/-- Matches lines of error output with expected errors: the lines that no expected error answers
for, as failures, and the expected errors that are left. -/
def matchErrors : List String → List String → List Failure × List String
  | expected, [] => ([], expected)
  | expected, line :: rest =>
    match shownError? line with
    | some error =>
      if error ∈ expected then matchErrors (expected.erase error) rest
      else
        let (failures, missing) := matchErrors expected rest
        (.unexpectedError line :: failures, missing)
    | none =>
      let (failures, missing) := matchErrors expected rest
      (if line.isEmpty then failures else .strayLine line :: failures, missing)

/-- How many unexpected lines of error output are listed. -/
def listedErrors : Nat := 10

/-- The failures of the error output when no error of evaluation is expected. -/
def errorFailures (expected lines : List String) : List Failure :=
  let (unexpected, missing) := matchErrors expected lines
  unexpected.take listedErrors
    ++ (if listedErrors < unexpected.length then [.truncated (unexpected.length - listedErrors)]
        else [])
    ++ missing.map .missingError

/-- The failures of the error output when an error of evaluation is expected: only its first line
counts. -/
def runtimeErrorFailures (expected : String) : List String → List Failure
  | [] => [.missingRuntimeError expected]
  | line :: _ => if line = expected then [] else [.wrongRuntimeError expected line]

/-- The failures of the exit code. -/
def exitFailures (expected : Int) (got : Option Int) : List Failure :=
  if got = some expected then [] else [.wrongExit expected got]

/-- The failures of the output. -/
def outputFailures : List (Nat × String) → List String → List Failure
  | [], lines => lines.map .surplusOutput
  | expected, [] => expected.map fun e => .missingOutput e.2 e.1
  | e :: expected, line :: lines =>
    if e.2 = line then outputFailures expected lines
    else .wrongOutput e.2 e.1 line :: outputFailures expected lines

/-- All failures of a run from which the given outputs, errors and exit code are expected. -/
def failures (outputs : List (Nat × String)) (errors : List String) (runtimeError : Option String)
    (exitCode : Int) (x : Execution) : List Failure :=
  (match runtimeError with
    | some expected => runtimeErrorFailures expected (Text.lines x.stderr)
    | none => errorFailures errors (Text.lines x.stderr))
    ++ exitFailures exitCode x.exit
    ++ outputFailures outputs (Text.lines x.stdout)

/-- All failures of a run of a sample. -/
def verdict (e : Expectations) (x : Execution) : List Failure :=
  failures e.outputs e.errors e.runtimeError e.exitCode x

end LoxCalc.Sample
