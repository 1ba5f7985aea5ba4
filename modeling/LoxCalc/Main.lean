import LoxCalc.Command.Interpret

/-!
# The program

The interpreter command on the real arguments, files and streams. What it writes and how it ends is
decided by `LoxCalc.Command.Interpret`; here bytes are read and texts are written, so that a line of
a prompt is answered before the next is read.
-/

namespace LoxCalc.Program

open Command

/-- The fault that the system reports, as far as it is one that can be named. The system gives its
number for a fault, or the negation of the number. -/
def fileError? : IO.Error → Option FileError
  | .noFileOrDirectory _ _ _ => some .notFound
  | .permissionDenied _ _ _ => some .permissionDenied
  | .inappropriateType _ code _ =>
    some (if min code (-code) = 20 then .notADirectory else .isADirectory)
  | .resourceExhausted _ _ _ => some .storageFull
  | _ => none

/-- The bytes of the file at a path. -/
def readBytes (path : String) : IO (Except FileError (List UInt8)) := do
  try
    return .ok (← IO.FS.readBinFile path).toList
  catch e =>
    match fileError? e with
    | some fault => return .error fault
    | none => throw e

/-- The bytes of the next line of a stream, its end included; none at the end of the stream. -/
partial def readLine (input : IO.FS.Stream) (sofar : ByteArray) : IO ByteArray := do
  let next ← input.read 1
  if next.isEmpty then return sofar
  let sofar := sofar ++ next
  if next.toList = [0x0A] then return sofar
  readLine input sofar

/-- Answers the lines of standard input until it ends, or holds a line that is no text. -/
partial def prompt (tree : Bool) (input output errors : IO.FS.Stream) : IO UInt32 := do
  output.putStr Interpret.promptSign
  output.flush
  match Text.byteLines (← readLine input .empty).toList with
  | [] =>
    output.putStr "\n"
    output.flush
    return 0
  | line :: _ =>
    match Interpret.decode line with
    | .error e =>
      errors.putStr (e.message ++ "\n")
      return UInt32.ofNat Interpret.ioError
    | .ok source =>
      let (text, journal) := Interpret.promptLine tree (Journal.new (.buffer "")) source
      errors.putStr journal.sink.written
      output.putStr text
      prompt tree input output errors

/-- Writes what a command leaves behind and returns its exit code. -/
def complete (output errors : IO.FS.Stream) (c : Completion) : IO UInt32 := do
  errors.putStr c.stderr
  output.putStr c.stdout
  output.flush
  return UInt32.ofNat c.exit

/-- Runs the command. -/
def run (arguments : List String) (input output errors : IO.FS.Stream) : IO UInt32 := do
  match Interpret.options.read arguments with
  | .unusable => complete output errors ⟨Interpret.usageError, "", Interpret.usage⟩
  | .help => complete output errors (.notice false Interpret.help)
  | .version => complete output errors (.notice false Interpret.version)
  | .run arguments =>
    let tree := arguments.switches.contains "print-ast"
    match arguments.positional with
    | some path =>
      complete output errors (Interpret.script tree false path (← readBytes path))
    | none => prompt tree input output errors

end LoxCalc.Program

open LoxCalc in
/-- Runs the interpreter command; a stream that fails ends it. -/
def main (arguments : List String) : IO UInt32 := do
  let errors ← IO.getStderr
  try
    Program.run arguments (← IO.getStdin) (← IO.getStdout) errors
  catch e =>
    let text := match Program.fileError? e with
      | some fault => fault.message
      | none => toString e
    errors.putStr (text ++ "\n")
    return UInt32.ofNat Command.Interpret.ioError
