import LoxCalc.Unicode.Properties

/-!
# Patterns in a line

The forms that annotations and error lines have. A form is read at one place of a line, giving what
it holds there, and `search` takes the leftmost place where it can be read. The part of a form that
runs on goes up to the end of the line it stands on.
-/

namespace LoxCalc.Sample.Pattern

/-- What a form holds at the leftmost place where it can be read. -/
def search {α : Type} (read : List Char → Option α) : List Char → Option α
  | [] => read []
  | c :: cs => (read (c :: cs)).or (search read cs)

/-- What follows the given characters, if the text begins with them. -/
def behind : List Char → List Char → Option (List Char)
  | [], cs => some cs
  | _ :: _, [] => none
  | l :: ls, c :: cs => if l = c then behind ls cs else none

/-- The text up to the next line feed. -/
def toLineEnd (cs : List Char) : List Char :=
  cs.takeWhile (· != '\n')

/-- The rest of a line that begins with the word Error, that word included. -/
def errorText (cs : List Char) : Option (List Char) := do
  let rest ← behind "Error".toList cs
  return "Error".toList ++ toLineEnd rest

/-- A line number in brackets: its digits, and what follows it. -/
def lineNumber (cs : List Char) : Option (List Char × List Char) := do
  let rest ← behind "[line ".toList cs
  let digits := rest.takeWhile Unicode.isDecimalDigit
  if digits.isEmpty then none
  let rest ← behind "] ".toList (rest.dropWhile Unicode.isDecimalDigit)
  return (digits, rest)

/-- An error with the line it is on, as it is shown. -/
def located (digits text : List Char) : List Char :=
  "[line ".toList ++ digits ++ "] ".toList ++ text

/-- A comment that marks its file as no test. -/
def nontest (cs : List Char) : Option Unit := do
  let _ ← behind "// nontest".toList cs

/-- A comment with a line of output; one blank behind the colon is not part of it. -/
def output (cs : List Char) : Option (List Char) := do
  let rest ← behind "// expect:".toList cs
  return toLineEnd ((behind [' '] rest).getD rest)

/-- A comment with an error on another line. -/
def errorElsewhere (cs : List Char) : Option (List Char) := do
  let rest ← behind "// ".toList cs
  let (digits, rest) ← lineNumber rest
  return located digits (← errorText rest)

/-- A comment with an error on its own line. -/
def errorHere (number : Nat) (cs : List Char) : Option (List Char) := do
  let rest ← behind "// ".toList cs
  return located (Nat.toDigits 10 number) (← errorText rest)

/-- A comment with an error of evaluation on its own line. -/
def runtimeError (number : Nat) (cs : List Char) : Option (List Char) := do
  let rest ← behind "// expect runtime error: ".toList cs
  let text := toLineEnd rest
  if text.isEmpty then none
  return located (Nat.toDigits 10 number) ("Error: ".toList ++ text)

/-- An error as a program shows it, with something behind the word Error. -/
def shownError (cs : List Char) : Option (List Char) := do
  let (digits, rest) ← lineNumber cs
  let text ← errorText rest
  if text = "Error".toList then none
  return located digits text

end LoxCalc.Sample.Pattern
