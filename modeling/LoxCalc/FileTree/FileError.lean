/-!
# Faults of files and streams

Why a file cannot be read, a program not started or a text not written. Faults of the operating
system have a number, which is part of what is shown.
-/

namespace LoxCalc

/-- Why an operation on a file or stream failed. -/
inductive FileError where
  | notFound
  | permissionDenied
  | notADirectory
  | isADirectory
  | storageFull
  | invalidText
  deriving DecidableEq, Repr

namespace FileError

/-- The name of a fault. -/
def name : FileError → String
  | .notFound => "NotFound"
  | .permissionDenied => "PermissionDenied"
  | .notADirectory => "NotADirectory"
  | .isADirectory => "IsADirectory"
  | .storageFull => "StorageFull"
  | .invalidText => "InvalidData"

/-- The number that the operating system has for a fault. -/
def code? : FileError → Option Nat
  | .notFound => some 2
  | .permissionDenied => some 13
  | .notADirectory => some 20
  | .isADirectory => some 21
  | .storageFull => some 28
  | .invalidText => none

/-- What a fault is, in words. -/
def description : FileError → String
  | .notFound => "No such file or directory"
  | .permissionDenied => "Permission denied"
  | .notADirectory => "Not a directory"
  | .isADirectory => "Is a directory"
  | .storageFull => "No space left on device"
  | .invalidText => "stream did not contain valid UTF-8"

/-- The text of a fault: its description, with the system's number behind it. -/
def message (e : FileError) : String :=
  match e.code? with
  | some code => e.description ++ " (os error " ++ code.repr ++ ")"
  | none => e.description

/-- The text of a fault that ends a command: everything known about it, by field. -/
def dump (e : FileError) : String :=
  let detail := "kind: " ++ e.name ++ ", message: \"" ++ e.description ++ "\" \x7d"
  match e.code? with
  | some code => "Os \x7b code: " ++ code.repr ++ ", " ++ detail
  | none => "Error \x7b " ++ detail

end FileError

end LoxCalc
