import LoxCalc.FileTree.FileError

/-!
# File trees

The files that a command can see, below the directory it works in. A path is walked one name at a
time, and every name but the last has to be that of a directory. Of what lies outside the tree only
the directories above it are known to be there.
-/

namespace LoxCalc

/-- What stands at a place of a file tree. -/
inductive FileTree.Node where
  | file (bytes : List UInt8)
  | directory
  /-- The program that runs scripts. -/
  | interpreter
  deriving DecidableEq

/-- The files below a directory, each with the names that lead to it. A directory that holds
something needs no entry. -/
structure FileTree where
  entries : List (List String × FileTree.Node)

namespace FileTree

/-- The parts of a path between its slashes. -/
def segments (path : String) : List String :=
  path.splitOn "/"

/-- The tree of files with the given paths. -/
def ofFiles (files : List (String × Node)) : FileTree :=
  ⟨files.map fun f => ((segments f.1).filter fun name => name != "" && name != ".", f.2)⟩

/-- A place in the tree, or `none` for any place outside it. -/
abbrev Location := Option (List String)

/-- What stands at a place. -/
def node? (tree : FileTree) : Location → Option Node
  | none | some [] => some .directory
  | some names =>
    match tree.entries.lookup names with
    | some node => some node
    | none => if tree.entries.any fun e => names.isPrefixOf e.1 then some .directory else none

/-- The place above a place. -/
def parent : Location → Location
  | none | some [] => none
  | some names => some names.dropLast

/-- The place of the given name below a place. -/
def child (place : Location) (name : String) : Location :=
  place.map (· ++ [name])

/-- The place that the parts of a path lead to from a place. -/
def walk (tree : FileTree) : Location → List String → Except FileError Location
  | place, [] => .ok place
  | place, name :: rest =>
    if tree.node? place ≠ some .directory then .error .notADirectory
    else if name = "" ∨ name = "." then walk tree place rest
    else if name = ".." then walk tree (parent place) rest
    else if place.isSome ∧ (tree.node? (child place name)).isSome then
      walk tree (child place name) rest
    else .error .notFound

/-- The place that a path leads to. -/
def resolve (tree : FileTree) (path : String) : Except FileError Location :=
  if path.isEmpty then .error .notFound
  else tree.walk (if path.toList.head? = some '/' then none else some []) (segments path)

/-- What stands at a path. -/
def at? (tree : FileTree) (path : String) : Option Node :=
  match tree.resolve path with
  | .ok place => tree.node? place
  | .error _ => none

/-- Whether a path leads to a directory. -/
def isDirectory (tree : FileTree) (path : String) : Bool :=
  tree.at? path == some .directory

/-- The bytes of the file at a path. -/
def read (tree : FileTree) (path : String) : Except FileError (List UInt8) := do
  match tree.node? (← tree.resolve path) with
  | some (.file bytes) => .ok bytes
  | some .directory => .error .isADirectory
  | some .interpreter => .error .invalidText
  | none => .error .notFound

/-- Every place of the tree but its root, in any order. -/
def places (tree : FileTree) : List (List String) :=
  (tree.entries.flatMap fun e => (List.range e.1.length).map fun k => e.1.take (k + 1)).eraseDups

/-- The order of places in which a directory precedes what it holds and names are in the order of
their code points. -/
def precedes : List String → List String → Bool
  | [], _ => true
  | _ :: _, [] => false
  | a :: as, b :: bs => if a = b then precedes as bs else decide (a < b)

/-- The names that lead from a place to everything below it, a directory before what it holds. -/
def below (tree : FileTree) : Location → List (List String)
  | none => []
  | some names =>
    ((tree.places.filter fun p => names.isPrefixOf p && names.length < p.length).map
      (·.drop names.length)).mergeSort precedes

/-- The names that lead from the place of a path to everything below it. -/
def belowPath (tree : FileTree) (path : String) : List (List String) :=
  match tree.resolve path with
  | .ok place => tree.below place
  | .error _ => []

/-! ## Relative paths

The path that leads from a directory to a file, both given by the parts of their paths. Where the
two differ the relative path goes up once for every part that is left of the directory's; a part
that stands for the directory itself takes the file's next part along.
-/

/-- The parts of a path that count: empty ones do not, nor those for the same directory, save at the
start. -/
def components (path : String) : List String :=
  let named := fun name => name != "" && name != "."
  match segments path with
  | "." :: rest => "." :: rest.filter named
  | "" :: rest => if path.isEmpty then [] else "/" :: rest.filter named
  | parts => parts.filter named

/-- The parts that lead from `base` to `path` behind the parts `done`, if no part of `base` leads
up. -/
def relativeFrom (done : List String) : List String → List String → Option (List String)
  | path, [] => some (done ++ path)
  | [], _ :: base => relativeFrom (done ++ [".."]) [] base
  | p :: path, b :: base =>
    if done.isEmpty ∧ p = b then relativeFrom done path base
    else if b = "." then relativeFrom (done ++ [p]) path base
    else if b = ".." then none
    else some (done ++ ".." :: base.map (fun _ => "..") ++ p :: path)

/-- The path that leads from `base` to `path`, or no path if it is not known. -/
def relative (base path : String) : String :=
  "/".intercalate ((relativeFrom [] (components path) (components base)).getD [])

end FileTree

end LoxCalc
