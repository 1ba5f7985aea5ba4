import LoxCalc.FileTree.FileError
import LoxCalc.Sample.Pattern
import LoxCalc.Text.Lines
import LoxCalc.Text.Utf8

/-!
# What a sample expects

A sample is a program whose comments say what running it should give: lines of output, errors, or an
error of evaluation. Its lines are read in order. Each counts for at most one expectation, and
reading ends early at a line that marks the file as no test, or at one that is no text.
-/

namespace LoxCalc.Sample

/-- What one line of a sample expects. -/
inductive Expectation where
  /-- A line of output. -/
  | output (text : String)
  /-- An error before evaluation. -/
  | error (text : String)
  /-- An error of evaluation. -/
  | runtimeError (text : String)
  deriving DecidableEq

/-- What the line with the given number expects; the first form that occurs in it decides. -/
def Expectation.ofLine? (number : Nat) (line : List Char) : Option Expectation :=
  let found (form : List Char → Option (List Char)) (kind : String → Expectation) :=
    (Pattern.search form line).map (kind <| String.ofList ·)
  (found Pattern.output .output).or <|
  (found Pattern.errorElsewhere .error).or <|
  (found (Pattern.errorHere number) .error).or <|
  found (Pattern.runtimeError number) .runtimeError

/-- Whether a line marks its file as no test. -/
def isNontest (line : List Char) : Bool :=
  (Pattern.search Pattern.nontest line).isSome

/-- What a sample expects. -/
structure Expectations where
  /-- The lines of output, each with the number of the line that expects it. -/
  outputs : List (Nat × String) := []
  /-- The errors before evaluation. -/
  errors : List String := []
  /-- The error of evaluation. -/
  runtimeError : Option String := none
  /-- The exit code. -/
  exitCode : Nat := 0
  /-- How many expectations there are. -/
  count : Nat := 0
  deriving DecidableEq

namespace Expectations

/-- The expectations with that of the line with the given number. -/
def add (e : Expectations) (number : Nat) : Expectation → Expectations
  | .output text => { e with outputs := e.outputs ++ [(number, text)], count := e.count + 1 }
  | .error text =>
    { e with errors := e.errors ++ [text], exitCode := 65, count := e.count + 1 }
  | .runtimeError text =>
    { e with runtimeError := some text, exitCode := 70, count := e.count + 1 }

/-- Whether errors of both kinds are expected, which no program can give. -/
def isContradictory (e : Expectations) : Bool :=
  !e.errors.isEmpty && e.runtimeError.isSome

end Expectations

/-- How reading a sample ended. -/
inductive Status where
  /-- The sample is a test. -/
  | test
  /-- The sample is marked as no test. -/
  | nontest
  /-- The sample expects errors of both kinds. -/
  | contradictory
  /-- The sample could not be read to its end. -/
  | unreadable (e : FileError)
  deriving DecidableEq

/-- The expectations of lines from the given number on, added to earlier ones. -/
def readFrom (e : Expectations) (number : Nat) : List (List UInt8) → Expectations × Status
  | [] => (e, if e.isContradictory then .contradictory else .test)
  | line :: rest =>
    match Text.Utf8.decode? line with
    | none => (e, .unreadable .invalidText)
    | some text =>
      if isNontest text.toList then (e, .nontest)
      else
        match Expectation.ofLine? number text.toList with
        | some found => readFrom (e.add number found) (number + 1) rest
        | none => readFrom e (number + 1) rest

/-- The expectations of a sample with the given content. -/
def read (content : Except FileError (List UInt8)) : Expectations × Status :=
  match content with
  | .ok bytes => readFrom {} 1 (Text.byteLines bytes)
  | .error e => ({}, .unreadable e)

end LoxCalc.Sample
