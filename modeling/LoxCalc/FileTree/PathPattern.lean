import LoxCalc.FileTree

/-!
# Path patterns

A path pattern is matched against the names of a file tree part by part. A question mark stands for
any character, an asterisk for any characters, brackets for one of some characters, and a part of
two asterisks for any number of directories. The paths found are in the order of a walk that takes
the names of a directory in turn, and a directory before what it holds. The names `..` and `.`,
which every directory has, come before the others and are met only by a part that begins with a dot.
-/

namespace LoxCalc.FileTree.PathPattern

/-- Why a pattern has no meaning. -/
inductive Cause where
  | tooManyAsterisks
  | recursionInsidePart
  | badRange
  deriving DecidableEq, Repr

/-- A pattern that has no meaning, and the place in it where that shows. -/
structure PatternError where
  position : Nat
  cause : Cause
  deriving DecidableEq, Repr

/-- The wording of a cause. -/
def Cause.message : Cause → String
  | .tooManyAsterisks => "wildcards are either regular `*` or recursive `**`"
  | .recursionInsidePart => "recursive wildcards must form a single path component"
  | .badRange => "invalid range pattern"

/-- The text of a pattern error that ends a command. -/
def PatternError.dump (e : PatternError) : String :=
  "Custom \x7b kind: InvalidInput, error: PatternError \x7b pos: " ++ e.position.repr
    ++ ", msg: \"" ++ e.cause.message ++ "\" \x7d \x7d"

/-- One element of a pattern. -/
inductive Element where
  | literal (c : Char)
  | anyChar
  | anyText
  | anyDirectories
  /-- One of the characters in the ranges, or, negated, one of all others. -/
  | range (negated : Bool) (ranges : List (Char × Char))
  deriving DecidableEq

/-- The ranges that the inside of brackets spells. -/
def ranges : List Char → List (Char × Char)
  | low :: '-' :: high :: rest => (low, high) :: ranges rest
  | c :: rest => (c, c) :: ranges rest
  | [] => []

/-- The element that an opening bracket begins, given what follows the bracket, and how many of
those characters it takes. Brackets hold at least one character, whichever it is. -/
def bracket? (inside : List Char) : Option (Element × Nat) :=
  let take (negated : Bool) (skipped : Nat) : List Char → Option (Element × Nat)
    | first :: rest =>
      let more := rest.takeWhile (· != ']')
      if more.length < rest.length then
        some (.range negated (ranges (first :: more)), skipped + more.length + 2)
      else none
    | [] => none
  match inside with
  | '!' :: rest => take true 1 rest
  | _ => take false 0 inside

/-- The elements of a pattern from the given position on, of which the first `skip` characters
belong to the element before; `start` says that a part of the path begins behind them. -/
def elementsFrom (position : Nat) (start : Bool) (skip : Nat) :
    List Char → Except PatternError (List Element)
  | [] => .ok []
  | c :: rest =>
    match skip with
    | skip + 1 => elementsFrom (position + 1) start skip rest
    | 0 =>
      if c = '*' then
        match rest with
        | '*' :: '*' :: _ => .error ⟨position + 2, .tooManyAsterisks⟩
        | '*' :: more =>
          if !start then .error ⟨position - 1, .recursionInsidePart⟩
          else
            match more with
            | [] => .ok [.anyDirectories]
            | '/' :: _ =>
              return .anyDirectories :: (← elementsFrom (position + 1) true 2 rest)
            | _ => .error ⟨position + 2, .recursionInsidePart⟩
        | _ => return .anyText :: (← elementsFrom (position + 1) false 0 rest)
      else if c = '?' then return .anyChar :: (← elementsFrom (position + 1) false 0 rest)
      else if c = '[' then
        match bracket? rest with
        | some (element, taken) =>
          return element :: (← elementsFrom (position + 1) false taken rest)
        | none => .error ⟨position, .badRange⟩
      else return .literal c :: (← elementsFrom (position + 1) (c = '/') 0 rest)

/-- The elements of a pattern. -/
def elements (pattern : String) : Except PatternError (List Element) :=
  elementsFrom 0 true 0 pattern.toList

/-- Whether an element stands for itself. -/
def Element.isLiteral : Element → Bool
  | .literal _ => true
  | _ => false

/-- Whether an element that stands for one character admits it. -/
def Element.admits (c : Char) : Element → Bool
  | .literal l => l = c
  | .anyChar => true
  | .range negated ranges => negated != ranges.any fun r => r.1 ≤ c && c ≤ r.2
  | .anyText | .anyDirectories => false

/-- Whether the elements of one part of a pattern admit a name. -/
def admits : List Element → List Char → Bool
  | [], name => name.isEmpty
  | .anyText :: rest, name =>
    (List.range (name.length + 1)).any fun taken => admits rest (name.drop taken)
  | element :: rest, c :: name => element.admits c && admits rest name
  | _ :: _, [] => false

/-- A part of a pattern: a name, any number of directories, or elements that a name has to fit. -/
inductive Part where
  | name (text : String)
  | directories
  | fitting (elements : List Element)

/-- The part with the given text. -/
def Part.ofText (text : String) : Except PatternError Part := do
  let elements ← elements text
  if elements = [.anyDirectories] then return .directories
  else if elements.all Element.isLiteral then return .name text
  else return .fitting elements

/-- Whether a part admits a name. -/
def Part.admits (name : String) : Part → Bool
  | .name text => text = name
  | .directories => true
  | .fitting elements => PathPattern.admits elements name.toList

/-- Whether a part begins with a dot and is no name. -/
def Part.startsWithDot : Part → Bool
  | .fitting (.literal c :: _) => c = '.'
  | _ => false

/-- The path of a name below a path. -/
def extend (path name : String) : String :=
  if path.toList.getLast? = some '/' then path ++ name else path ++ "/" ++ name

/-- The path of a name below a path; the current directory, however it is written, is left out. -/
def join (path name : String) : String :=
  if components path = ["."] then name else extend path name

/-- The paths to the directory above `path` and to that of `path` itself, as far as a part that
begins with a dot admits their names. -/
def dotPaths (tree : FileTree) (part : Part) (path : String) : List String :=
  if part.startsWithDot && tree.isDirectory path then
    (["..", "."].filter (part.admits ·)).map (extend path)
  else []

/-- The paths from `path` on that a part leads to; `anywhere` says that any number of directories
may come before it. A name is looked up and everything else is searched for; the names `..` and `.`
are met in the directory of `path` alone. -/
def nextPaths (tree : FileTree) (anywhere : Bool) (part : Part) (path : String) : List String :=
  match anywhere, part with
  | false, .name text =>
    let isThere :=
      if text = "." ∨ text = ".." then tree.isDirectory path
      else (tree.at? (join path text)).isSome
    if isThere then [join path text] else []
  | _, _ =>
    let found := (tree.belowPath path).filter fun names =>
      (anywhere || names.length = 1) && (names.getLast?.any fun name => part.admits name)
    (if anywhere then [] else dotPaths tree part path)
      ++ found.map fun names => names.foldl join path

/-- The paths from `path` on that the parts lead to; `anywhere` says that any number of directories
may come before the first of them. -/
def pathsFrom (tree : FileTree) (anywhere : Bool) : List Part → String → List String
  | [], path => [path]
  | .directories :: rest, path => pathsFrom tree true rest path
  | part :: rest, path =>
    (nextPaths tree anywhere part path).flatMap (pathsFrom tree false rest)

/-- The paths in the tree that a pattern leads to. -/
def paths (tree : FileTree) (pattern : String) : Except PatternError (List String) := do
  let _ ← elements pattern
  match segments pattern with
  | "" :: parts => return pathsFrom tree false (← parts.mapM Part.ofText) "/"
  | parts => return pathsFrom tree false (← parts.mapM Part.ofText) "."

end LoxCalc.FileTree.PathPattern
