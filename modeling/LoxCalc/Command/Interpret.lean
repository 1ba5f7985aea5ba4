import LoxCalc.Command.Arguments
import LoxCalc.FileTree
import LoxCalc.Session
import LoxCalc.Text.Lines
import LoxCalc.Text.Utf8

/-!
# The interpreter command

The command evaluates a script, or without one the lines of a prompt, and writes their values; with
the option `--print-ast` it writes their trees instead. Reports go to standard error. A script's
exit code tells what kind of reports it had; at a prompt every line is a unit of its own, whose
reports are forgotten when the next is read.
-/

namespace LoxCalc.Command.Interpret

/-- The exit code for arguments that cannot be used. -/
def usageError : Nat := 64

/-- The exit code for a script that cannot be read. -/
def noInput : Nat := 66

/-- The exit code for a stream that fails. -/
def ioError : Nat := 74

/-- How the command is used, as it says when its arguments cannot be used. -/
def usage : String := "Usage: lox-cli [OPTIONS] [SCRIPT]\n"

/-- What the command says when asked for help. -/
def help : String :=
  "Evaluate Lox expressions from a script or an interactive prompt\n\n" ++ usage ++
  "\nArguments:\n" ++
  "  [SCRIPT]  Script to run. Starts an interactive prompt when omitted\n" ++
  "\nOptions:\n" ++
  "      --print-ast  Print the parsed syntax tree instead of evaluating it\n" ++
  "  -h, --help       Print help\n" ++
  "  -V, --version    Print version\n"

/-- What the command says when asked for its version. -/
def version : String := "lox 0.1.0\n"

/-- The options of the command. -/
def options : Options where
  switches := ["print-ast"]
  paths := []
  allowsEmpty := false

/-- The value, or with `tree` the tree, of a program, as it is written, and the journal after it. -/
def answer (tree : Bool) (j : Journal) (source : String) : Option String × Journal :=
  let (output, j) := if tree then j.showTree source else j.run source
  (output.map (· ++ "\n"), j)

/-- The text of a file or line that has to be valid throughout. -/
def decode (bytes : List UInt8) : Except FileError String :=
  match Text.Utf8.decode? bytes with
  | some text => .ok text
  | none => .error .invalidText

/-- Runs a script, given the path it was asked for by and what was read from there; `full` says that
nothing can be written to standard output. -/
def script (tree full : Bool) (path : String) (content : Except FileError (List UInt8)) :
    Completion :=
  match content >>= decode with
  | .error e => ⟨noInput, "", "Could not read '" ++ path ++ "': " ++ e.message ++ "\n"⟩
  | .ok source =>
    match answer tree (Journal.new (.buffer "")) source with
    | (none, j) => ⟨j.exitCode?.getD 0, "", j.sink.written⟩
    | (some text, j) =>
      if full then ⟨ioError, "", j.sink.written ++ FileError.storageFull.message ++ "\n"⟩
      else ⟨j.exitCode?.getD 0, text, j.sink.written⟩

/-- What precedes every line of a prompt. -/
def promptSign : String := "> "

/-- What a prompt writes, its journal at the end, and why it stopped early if it did. -/
structure Transcript where
  stdout : String
  journal : Journal
  error : Option FileError

/-- The answer to one line of a prompt, and the journal for the next. -/
def promptLine (tree : Bool) (j : Journal) (source : String) : String × Journal :=
  let (output, j) := answer tree j source
  (output.getD "", j.reset)

/-- A prompt that answers lines one after another, up to one that is no text. -/
def promptFrom (tree : Bool) (j : Journal) : List (List UInt8) → Transcript
  | [] => ⟨promptSign ++ "\n", j, none⟩
  | line :: rest =>
    match decode line with
    | .error e => ⟨promptSign, j, some e⟩
    | .ok source =>
      let (output, j) := promptLine tree j source
      let others := promptFrom tree j rest
      { others with stdout := promptSign ++ output ++ others.stdout }

/-- A prompt on the given input. Its first write fails if standard output is full. -/
def prompt (tree full : Bool) (input : List UInt8) : Completion :=
  if full then ⟨ioError, "", FileError.storageFull.message ++ "\n"⟩
  else
    let transcript := promptFrom tree (Journal.new (.buffer "")) (Text.byteLines input)
    let reports := transcript.journal.sink.written
    match transcript.error with
    | none => ⟨0, transcript.stdout, reports⟩
    | some e => ⟨ioError, transcript.stdout, reports ++ e.message ++ "\n"⟩

/-- The command on the given arguments, files and input. -/
def run (arguments : List String) (files : FileTree) (input : List UInt8) (full : Bool) :
    Completion :=
  match options.read arguments with
  | .unusable => ⟨usageError, "", usage⟩
  | .help => .notice full help
  | .version => .notice full version
  | .run arguments =>
    let tree := arguments.switches.contains "print-ast"
    match arguments.positional with
    | some path => script tree full path (files.read path)
    | none => prompt tree full input

end LoxCalc.Command.Interpret
