import LoxCalc.Command.Interpret
import LoxCalc.FileTree.PathPattern
import LoxCalc.Sample.Suite

/-!
# The checking command

The command runs the interpreter on the samples below a directory and checks what it gives against
what they expect. It takes a filter for the samples, the interpreter to run and the directory.
-/

namespace LoxCalc.Command.Check

open Sample (Execution)

/-- The exit code for arguments that cannot be used. -/
def usageError : Nat := 2

/-- How the command is used, as it says when its arguments cannot be used. -/
def usage : String := "Usage: lox-tester [OPTIONS] [FILTER]\n"

/-- What the command says when asked for its version. -/
def version : String := "lox-tester 0.1.0\n"

/-- The options of the command. -/
def options : Options where
  switches := []
  paths := ["binary", "samples"]
  allowsEmpty := true

/-- The interpreter that is run unless another is named. -/
def defaultBinary : String := "./target/release/lox-cli"

/-- The directory of the samples unless another is named. -/
def defaultSamples : String := "samples"

/-- What the command says when asked for help. -/
def help : String :=
  usage ++
  "\nArguments:\n" ++
  "  [FILTER]  Only run samples whose path below the samples directory starts with this\n" ++
  "\nOptions:\n" ++
  "      --binary <BINARY>    Interpreter binary to test [default: " ++ defaultBinary ++ "]\n" ++
  "      --samples <SAMPLES>  Directory holding the `.lox` samples [default: " ++ defaultSamples ++
  "]\n" ++
  "  -h, --help               Print help\n" ++
  "  -V, --version            Print version\n"

/-- The execution of a script by the program at the path `binary`. A name without a slash is that of
an installed program, of which there are none. -/
def execute (files : FileTree) (binary script : String) : Except FileError Execution := do
  if '/' ∉ binary.toList then .error .notFound
  match files.node? (← files.resolve binary) with
  | some .interpreter =>
    let c := Interpret.run [script] files [] false
    return ⟨c.stdout, c.stderr, some c.exit⟩
  | some _ => .error .permissionDenied
  | none => .error .notFound

/-- The pattern of the samples below a directory. -/
def samplePattern (directory : String) : String :=
  let ended := directory.isEmpty ∨ directory.toList.getLast? = some '/'
  (if ended then directory else directory ++ "/") ++ "**/*.lox"

/-- The samples below a directory, in the order they are run in. -/
def cases (files : FileTree) (directory : String) :
    Except FileTree.PathPattern.PatternError (List Sample.Case) := do
  let paths ← FileTree.PathPattern.paths files (samplePattern directory)
  return paths.map fun path =>
    { path, relative := FileTree.relative directory path, content := files.read path }

/-- Checks the samples below a directory. -/
def check (files : FileTree) (binary directory : String) (filter : Option String) :
    Except FileTree.PathPattern.PatternError Sample.Progress := do
  return Sample.runSuite (execute files binary) filter (← cases files directory)

/-- The command on the given arguments and files; `full` says that nothing can be written to
standard output. -/
def run (arguments : List String) (files : FileTree) (full : Bool) : Completion :=
  match options.read arguments with
  | .unusable => ⟨usageError, "", usage⟩
  | .help => .notice full help
  | .version => .notice full version
  | .run arguments =>
    let binary := (arguments.paths.lookup "binary").getD defaultBinary
    let directory := (arguments.paths.lookup "samples").getD defaultSamples
    match check files binary directory arguments.positional with
    | .error e => ⟨1, "", "Error: " ++ e.dump ++ "\n"⟩
    | .ok progress =>
      if full then ⟨1, "", "Error: " ++ FileError.storageFull.dump ++ "\n"⟩
      else
        let stdout := Sample.writesText progress.writes
        match progress.result with
        | .error e => ⟨1, stdout, "Error: " ++ e.dump ++ "\n"⟩
        | .ok passed => ⟨if passed then 0 else 1, stdout, ""⟩

end LoxCalc.Command.Check
