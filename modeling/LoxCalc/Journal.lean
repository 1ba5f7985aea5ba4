import LoxCalc.Fault

/-!
# The journal of a session

A journal keeps the reports of a session in order, remembers in two flags whether programs failed
before or during their evaluation, and copies each report as one line to a sink. A sink that fails
changes nothing else: there is nowhere left to report that to.
-/

namespace LoxCalc

/-- Where reports are copied to. -/
inductive Sink where
  /-- Nowhere. -/
  | none
  /-- To a text that has `written` on it so far. -/
  | buffer (written : String)
  /-- To a place where every write fails. -/
  | failing
  deriving DecidableEq

/-- A sink after a line was written to it. -/
def Sink.writeLine (line : String) : Sink → Sink
  | .buffer written => .buffer (written ++ line ++ "\n")
  | sink => sink

/-- What has been written to a sink. -/
def Sink.written : Sink → String
  | .buffer written => written
  | _ => ""

/-- The reports of a session and what they mean for it. -/
structure Journal where
  reports : List Report
  hadError : Bool
  hadRuntimeError : Bool
  sink : Sink
  deriving DecidableEq

namespace Journal

/-- The journal without reports. -/
def new (sink : Sink) : Journal :=
  ⟨[], false, false, sink⟩

/-- The journal with one more report. -/
def add (j : Journal) (r : Report) : Journal where
  reports := j.reports ++ [r]
  hadError := j.hadError || r.isStatic
  hadRuntimeError := j.hadRuntimeError || !r.isStatic
  sink := j.sink.writeLine r.message

/-- The journal with more reports, in order. -/
def addAll (j : Journal) (rs : List Report) : Journal :=
  rs.foldl add j

/-- The journal without its reports; what has been written stays written. -/
def reset (j : Journal) : Journal :=
  new j.sink

/-- The exit code for a program with a lexical fault or a fault of grammar. -/
def dataError : Nat := 65

/-- The exit code for a program that failed while it was evaluated. -/
def softwareError : Nat := 70

/-- The exit code that the journal asks for, if it asks for one. -/
def exitCode? (j : Journal) : Option Nat :=
  if j.hadError then some dataError
  else if j.hadRuntimeError then some softwareError
  else none

end Journal

end LoxCalc
