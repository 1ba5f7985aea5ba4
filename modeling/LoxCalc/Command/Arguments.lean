/-!
# Command lines

A command takes options and at most one other argument, in any order. Long options begin with two
hyphens; those that take a value have it behind an equals sign or as the next argument. A lone
double hyphen ends the options, and a single one is no option. Arguments are read from left to
right: a request for help or for the version is answered as soon as it is met, and the first
argument that does not fit makes the whole line unusable. What a command leaves behind is its exit
code and what it wrote to its two streams.
-/

namespace LoxCalc.Command

/-- The options of a command. -/
structure Options where
  /-- The options without a value. -/
  switches : List String
  /-- The options whose value is a path. -/
  paths : List String
  /-- Whether the argument that is no option may be empty; a path may not. -/
  allowsEmpty : Bool

/-- The arguments of a command, once read. -/
structure Arguments where
  positional : Option String := none
  switches : List String := []
  paths : List (String × String) := []

/-- What a command line asks for. -/
inductive Request where
  | run (arguments : Arguments)
  | help
  | version
  | unusable

/-- Whether an argument is taken for an option, if options are still expected. -/
def looksLikeOption : List Char → Bool
  | '-' :: _ :: _ => true
  | _ => false

/-- The name and the attached value of a long option. -/
def splitOption (option : List Char) : String × Option String :=
  let name := String.ofList (option.takeWhile (· != '='))
  match option.dropWhile (· != '=') with
  | [] => (name, none)
  | _ :: value => (name, some (String.ofList value))

/-- The arguments with a path option, or nothing if it was given before or its value is empty. -/
def Arguments.setPath (arguments : Arguments) (name value : String) : Option Arguments :=
  if value.isEmpty || (arguments.paths.lookup name).isSome then none
  else some { arguments with paths := (name, value) :: arguments.paths }

/-- The arguments with the one that is no option, or nothing if there is one or it may not be
empty. -/
def Arguments.setPositional (arguments : Arguments) (allowsEmpty : Bool) (value : String) :
    Option Arguments :=
  if arguments.positional.isSome || (value.isEmpty && !allowsEmpty) then none
  else some { arguments with positional := some value }

/-- Reads arguments behind those already read; `ended` says that no more options come. -/
def Options.readFrom (options : Options) (ended : Bool) (sofar : Arguments) :
    List String → Request
  | [] => .run sofar
  | argument :: rest =>
    match ended, argument.toList with
    | false, ['-', '-'] => readFrom options true sofar rest
    | false, '-' :: '-' :: option =>
      match splitOption option with
      | ("help", none) => .help
      | ("version", none) => .version
      | (name, value) =>
        if name ∈ options.switches then
          if value.isSome || name ∈ sofar.switches then .unusable
          else readFrom options false { sofar with switches := name :: sofar.switches } rest
        else if name ∈ options.paths then
          match value, rest with
          | some value, rest =>
            match sofar.setPath name value with
            | some sofar => readFrom options false sofar rest
            | none => .unusable
          | none, value :: rest =>
            if looksLikeOption value.toList then .unusable
            else
              match sofar.setPath name value with
              | some sofar => readFrom options false sofar rest
              | none => .unusable
          | none, [] => .unusable
        else .unusable
    | false, '-' :: 'h' :: _ => .help
    | false, '-' :: 'V' :: _ => .version
    | false, '-' :: _ :: _ => .unusable
    | _, _ =>
      match sofar.setPositional options.allowsEmpty argument with
      | some sofar => readFrom options ended sofar rest
      | none => .unusable

/-- What a command line asks for. -/
def Options.read (options : Options) (arguments : List String) : Request :=
  options.readFrom false {} arguments

/-! ## How a command ends -/

/-- The exit code of a command and its output. -/
structure Completion where
  exit : Nat
  stdout : String
  stderr : String
  deriving DecidableEq

/-- A text on standard output, or nothing if that is full: a failure that nobody waits for. -/
def Completion.notice (full : Bool) (text : String) : Completion :=
  ⟨0, if full then "" else text, ""⟩

end LoxCalc.Command
