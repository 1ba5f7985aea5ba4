import LoxCalc.Fault
import LoxCalc.Unicode.Cluster

/-!
# Lexemes

A source is cut, cluster by cluster, into lexemes: tokens, trivia (blanks, line ends and comments)
and faults. `Lexeme.next` takes the longest lexeme at the start of a sequence of clusters and
`Lexeme.all` takes them one after another until nothing is left. A cluster is compared whole: a
character that carries a mark is another cluster than the character alone.

Nothing is lost: a lexeme and the clusters behind it are the clusters it was taken from
(`Lexeme.next_append`).
-/

namespace LoxCalc

open Unicode (Cluster)

/-- What a lexeme is. -/
inductive Lexeme.Label where
  | token (kind : TokenKind) (literal : Option Literal)
  | trivia
  | fault (cause : LexicalCause)
  deriving DecidableEq

/-- A labelled stretch of source. -/
structure Lexeme where
  label : Lexeme.Label
  body : List Cluster
  deriving DecidableEq

namespace Lexeme

/-- The text a lexeme covers. -/
def text (l : Lexeme) : String :=
  String.ofList l.body.flatten

/-- A cluster that ends a line: a line feed, also with its carriage return. -/
def isNewline (c : Cluster) : Bool :=
  c == ['\n'] || c == ['\r', '\n']

/-- A cluster that separates tokens within a line. -/
def isBlank (c : Cluster) : Bool :=
  c == [' '] || c == ['\r'] || c == ['\t']

/-- A cluster of ASCII digits. -/
def isDigit (c : Cluster) : Bool :=
  !c.isEmpty && c.all Char.isDigit

/-- A cluster that can begin a word: ASCII letters, or an underscore. -/
def isLetter (c : Cluster) : Bool :=
  (!c.isEmpty && c.all Char.isAlpha) || c == ['_']

/-- A cluster that can continue a word: ASCII letters and digits, or an underscore. -/
def isWordPart (c : Cluster) : Bool :=
  (!c.isEmpty && c.all Char.isAlphanum) || c == ['_']

/-- The cluster that delimits strings. -/
def quote : Cluster := ['"']

/-- How many lines end within a lexeme. -/
def newlines (l : Lexeme) : Nat :=
  l.body.countP isNewline

/-- Punctuation that is a token whatever follows it. -/
def punctuation : List (Cluster × TokenKind) :=
  [(['('], .leftParen), ([')'], .rightParen), (['\x7b'], .leftBrace), (['\x7d'], .rightBrace),
   ([','], .comma), (['.'], .dot), (['-'], .minus), (['+'], .plus), ([';'], .semicolon),
   (['*'], .star)]

/-- Punctuation that an equals sign behind it turns into another token: both tokens. -/
def equalizable : List (Cluster × TokenKind × TokenKind) :=
  [(['!'], .bang, .bangEqual), (['='], .equal, .equalEqual), (['>'], .greater, .greaterEqual),
   (['<'], .less, .lessEqual)]

/-- The token that the body spells, and what follows it. -/
def tokenOf (kind : TokenKind) (body rest : List Cluster) : Lexeme × List Cluster :=
  (⟨.token kind none, body⟩, rest)

/-- One of two tokens: `long` if an equals sign follows `c`. -/
def nextEqualizable (short long : TokenKind) (c : Cluster) :
    List Cluster → Lexeme × List Cluster
  | ['='] :: rest => tokenOf long [c, ['=']] rest
  | rest => tokenOf short [c] rest

/-- A comment, which goes up to the end of its line, or a slash. -/
def nextSlash (c : Cluster) : List Cluster → Lexeme × List Cluster
  | ['/'] :: rest =>
    (⟨.trivia, c :: ['/'] :: rest.takeWhile (!isNewline ·)⟩, rest.dropWhile (!isNewline ·))
  | rest => tokenOf .slash [c] rest

/-- A string, which goes up to the next quote, or the rest of the source if there is none. -/
def nextString (c : Cluster) (rest : List Cluster) : Lexeme × List Cluster :=
  let inner := rest.takeWhile (· != quote)
  match rest.dropWhile (· != quote) with
  | [] => (⟨.fault .unterminatedString, c :: inner⟩, [])
  | close :: rest =>
    (⟨.token .string (some (.string (String.ofList inner.flatten))), c :: inner ++ [close]⟩, rest)

/-- The label of a number: a body that spells no number is a fault. -/
def numberLabel (body : List Cluster) : Label :=
  match Number.ofText? body.flatten with
  | some x => .token .number (some (.number x))
  | none => .fault .invalidNumber

/-- The number that the body spells, and what follows it. -/
def numberOf (body rest : List Cluster) : Lexeme × List Cluster :=
  (⟨numberLabel body, body⟩, rest)

/-- A number: digits, and a point with more digits behind it. -/
def nextNumber (c : Cluster) (rest : List Cluster) : Lexeme × List Cluster :=
  let whole := c :: rest.takeWhile isDigit
  match rest.dropWhile isDigit with
  | ['.'] :: d :: rest =>
    if isDigit d then
      numberOf (whole ++ ['.'] :: d :: rest.takeWhile isDigit) (rest.dropWhile isDigit)
    else numberOf whole (['.'] :: d :: rest)
  | rest => numberOf whole rest

/-- A word: a reserved word, or else an identifier. -/
def nextWord (c : Cluster) (rest : List Cluster) : Lexeme × List Cluster :=
  let body := c :: rest.takeWhile isWordPart
  let kind := (TokenKind.ofWord? (String.ofList body.flatten)).getD .identifier
  tokenOf kind body (rest.dropWhile isWordPart)

/-- The lexeme that begins with the cluster `c`, and the clusters behind it. -/
def next (c : Cluster) (rest : List Cluster) : Lexeme × List Cluster :=
  match punctuation.lookup c, equalizable.lookup c with
  | some kind, _ => tokenOf kind [c] rest
  | none, some (short, long) => nextEqualizable short long c rest
  | none, none =>
    if c = ['/'] then nextSlash c rest
    else if isBlank c || isNewline c then (⟨.trivia, [c]⟩, rest)
    else if c = quote then nextString c rest
    else if isDigit c then nextNumber c rest
    else if isLetter c then nextWord c rest
    else (⟨.fault .unexpectedCharacter, [c]⟩, rest)

/-- A lexeme and what follows it are the clusters it was taken from. -/
theorem next_append (c : Cluster) (rest : List Cluster) :
    (next c rest).1.body ++ (next c rest).2 = c :: rest := by
  have takeDrop (p : Cluster → Bool) (cs : List Cluster) :
      cs.takeWhile p ++ cs.dropWhile p = cs := List.takeWhile_append_dropWhile
  unfold next
  split
  · simp [tokenOf]
  · unfold nextEqualizable
    split <;> simp [tokenOf]
  · split
    · unfold nextSlash
      split <;> simp [tokenOf, takeDrop]
    · split
      · simp
      · split
        · unfold nextString
          have whole := takeDrop (· != quote) rest
          split <;> rename_i hrest <;> rw [hrest] at whole <;> simp_all
        · split
          · unfold nextNumber
            have whole := takeDrop isDigit rest
            split
            · rename_i hrest
              rw [hrest] at whole
              split <;> simp [numberOf, takeDrop, whole]
            · simp [numberOf, whole]
          · split <;> simp [nextWord, tokenOf, takeDrop]

/-- A lexeme takes at least the cluster it begins with. -/
theorem body_next_ne_nil (c : Cluster) (rest : List Cluster) : (next c rest).1.body ≠ [] := by
  unfold next nextEqualizable nextSlash nextString nextNumber nextWord
  repeat' split
  all_goals simp [tokenOf, numberOf]

/-- What follows a lexeme is no longer than what follows its first cluster. -/
theorem length_next_le (c : Cluster) (rest : List Cluster) :
    (next c rest).2.length ≤ rest.length := by
  have whole := congrArg List.length (next_append c rest)
  have taken := List.length_pos_iff.mpr (body_next_ne_nil c rest)
  simp only [List.length_append, List.length_cons] at whole
  omega

/-- The lexemes of a sequence of clusters. -/
def all : List Cluster → List Lexeme
  | [] => []
  | c :: rest => (next c rest).1 :: all (next c rest).2
termination_by cs => cs.length
decreasing_by exact Nat.lt_succ_of_le (length_next_le c rest)

end Lexeme

end LoxCalc
