import LoxCalc.Expr.Eval
import LoxCalc.Expr.Parse
import LoxCalc.Expr.Render
import LoxCalc.Journal.Dump
import LoxCalc.Scan

/-!
# Sessions

A session runs programs against one journal. A program is scanned and parsed, both with all their
reports; it is evaluated, or its tree is shown, only if the journal holds no error by then, also no
earlier one: a lexical fault leaves a hole in the tokens, and a tree parsed over it means nothing.
-/

namespace LoxCalc

namespace Journal

/-- The tree of a source, if the journal then holds no error. -/
def parse (j : Journal) (source : String) : Option Expr × Journal :=
  let scan := Scan.ofSource source
  let j := j.addAll (scan.faults.map .lexical)
  match (Parser.ofTokens scan.allTokens).parse.1 with
  | .ok e => (if j.hadError then none else some e, j)
  | .error f => (none, j.add (.grammar f))

/-- The text of the value of an expression, or its fault in the journal. -/
def evaluate (j : Journal) (e : Expr) : Option String × Journal :=
  match e.eval with
  | .ok v => (some v.text, j)
  | .error f => (none, j.add (.runtime f))

/-- Runs a program and returns the text of its value. -/
def run (j : Journal) (source : String) : Option String × Journal :=
  match j.parse source with
  | (some e, j) => j.evaluate e
  | (none, j) => (none, j)

/-- Parses a program and returns the text of its tree. -/
def showTree (j : Journal) (source : String) : Option String × Journal :=
  let (e, j) := j.parse source
  (e.map Expr.render, j)

end Journal

/-- What can be done in a session. -/
inductive Session.Step where
  | run (source : String)
  | showTree (source : String)
  | reset
  | dump
  | report (r : Report)

/-- Takes a step of a session: what it returns, and the journal after it. -/
def Session.step (j : Journal) : Session.Step → Option String × Journal
  | .run source => j.run source
  | .showTree source => j.showTree source
  | .reset => (none, j.reset)
  | .dump => (some j.dump, j)
  | .report r => (none, j.add r)

end LoxCalc
