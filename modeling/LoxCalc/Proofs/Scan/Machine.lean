import LoxCalc.Proofs.Lexeme.Step
import LoxCalc.Scan

/-!
# Scanning as a machine

A source can be scanned by a machine that walks over its clusters. The machine keeps the index where
the current lexeme starts, the index that it looks at and the line it is on, and writes down the
tokens and faults that it finds. It goes further without asking whether there is a cluster to go
past, counts the line ends of a string one by one as it meets them, and cuts every text out of the
clusters by two indices. An action has no result if it cuts beyond the clusters or with its indices
in the wrong order, if it subtracts one from the index zero, or if a loop runs out of fuel, as one
does that never ends.

The machine takes the lexemes that `Lexeme.all` lists and comes to an end with the tokens and the
faults of the scan (`scan_eq`). So no cut fails, and all places where the machine ever is are within
the source: between the start of a lexeme and its end (`mem_stops_iff`). `Holds` says where the
machine is while it takes one lexeme, and each action has one lemma in terms of it.
-/

namespace LoxCalc.Scan.Machine

open Unicode (Cluster)
open Lexeme (isNewline isBlank isDigit isLetter isWordPart quote EndsRun)

/-- What a machine keeps. -/
structure State where
  /-- The index of the first cluster of the lexeme. -/
  start : Nat
  /-- The index of the cluster that it looks at. -/
  current : Nat
  /-- The line it is on. -/
  line : Nat
  /-- All values that the two indices have had together, the first ones first. -/
  trail : List (Nat × Nat)
  /-- The tokens it has found. -/
  tokens : List Token
  /-- The faults it has found. -/
  faults : List LexicalFault
  deriving DecidableEq

/-- Before the first cluster. -/
def State.new : State := ⟨0, 0, 1, [(0, 0)], [], []⟩

/-- A lexeme starts where the machine is. -/
def State.begin (s : State) : State :=
  { s with start := s.current, trail := s.trail ++ [(s.current, s.current)] }

/-- One cluster further. -/
def State.forward (s : State) : State :=
  { s with current := s.current + 1, trail := s.trail ++ [(s.start, s.current + 1)] }

/-- One line further. -/
def State.nextLine (s : State) : State :=
  { s with line := s.line + 1 }

/-- What a machine does from a state: a value and the state after it, if there is one. -/
abbrev Action := StateT State Option

section Actions

variable (clusters : List Cluster)

/-! ## Steps -/

/-- The cluster at the cursor, if there is one. -/
def peek : Action (Option Cluster) := do return clusters[(← get).current]?

/-- The cluster behind that one. -/
def peekNext : Action (Option Cluster) := do return clusters[(← get).current + 1]?

/-- Whether the cursor is behind all clusters. -/
def isAtEnd : Action Bool := do return clusters.length ≤ (← get).current

/-- Goes one cluster further, also where there is none. -/
def advance : Action Cluster := do
  let c ← peek clusters
  modify State.forward
  return c.getD []

/-- Goes past the cluster at the cursor if it is the expected one. -/
def accepts (expected : Cluster) : Action Bool := do
  if (← peek clusters) = some expected then
    modify State.forward
    return true
  return false

/-- The clusters from one index up to another. There is no other way to the text of a lexeme. -/
def slice (first last : Nat) : Action (List Cluster) :=
  if first ≤ last ∧ last ≤ clusters.length then return clusters.extract first last
  else failure

/-- The clusters of the lexeme so far. -/
def body : Action (List Cluster) := do
  let s ← get
  slice clusters s.start s.current

/-- The clusters of the lexeme without the first and the last one. -/
def inner : Action (List Cluster) := do
  let s ← get
  if 1 ≤ s.current then slice clusters (s.start + 1) (s.current - 1)
  else failure

/-- Finds a token that ends at the cursor. -/
def addToken (kind : TokenKind) (literal : Option Literal) :
    Action (Except LexicalFault Unit) := do
  let body ← body clusters
  modify fun s =>
    { s with tokens := s.tokens ++ [⟨kind, String.ofList body.flatten, literal, s.line⟩] }
  return .ok ()

/-- A fault on the line where the machine is. -/
def fault (cause : LexicalCause) : Action (Except LexicalFault Unit) := do
  return .error ⟨cause, (← get).line⟩

/-! ## Loops -/

/-- Goes past all clusters with a property. -/
def goPast (p : Cluster → Bool) : (fuel : Nat) → Action Unit
  | 0 => failure
  | fuel + 1 => do
    if (← peek clusters).any p then
      let _ ← advance clusters
      goPast p fuel

/-- Goes up to the next quote and counts the lines that end before it. -/
def goToQuote : (fuel : Nat) → Action Unit
  | 0 => failure
  | fuel + 1 => do
    match ← peek clusters with
    | none => return ()
    | some c =>
      if c = quote then return ()
      if isNewline c then modify State.nextLine
      let _ ← advance clusters
      goToQuote fuel

/-! ## Lexemes

Each of these goes on behind the cluster that a lexeme begins with. -/

/-- A string. -/
def string : Action (Except LexicalFault Unit) := do
  goToQuote clusters clusters.length
  if ← isAtEnd clusters then fault .unterminatedString
  else
    let _ ← advance clusters
    let inner ← inner clusters
    addToken clusters .string (some (.string (String.ofList inner.flatten)))

/-- A point with digits behind it, if that is there. -/
def fraction : Action Unit := do
  if (← peek clusters) = some ['.'] ∧ (← peekNext clusters).any isDigit then
    let _ ← advance clusters
    goPast clusters isDigit clusters.length

/-- The number that the clusters of the lexeme spell. -/
def readNumber : Action (Except LexicalFault Unit) := do
  match Number.ofText? (← body clusters).flatten with
  | some x => addToken clusters .number (some (.number x))
  | none => fault .invalidNumber

/-- A number. -/
def number : Action (Except LexicalFault Unit) := do
  goPast clusters isDigit clusters.length
  fraction clusters
  readNumber clusters

/-- A word. -/
def word : Action (Except LexicalFault Unit) := do
  goPast clusters isWordPart clusters.length
  let text := String.ofList (← body clusters).flatten
  addToken clusters ((TokenKind.ofWord? text).getD .identifier) none

/-- One of two tokens: `long` if an equals sign follows. -/
def equalizable (short long : TokenKind) : Action (Except LexicalFault Unit) := do
  if ← accepts clusters ['='] then addToken clusters long none
  else addToken clusters short none

/-- A comment, or a slash. -/
def slash : Action (Except LexicalFault Unit) := do
  if ← accepts clusters ['/'] then
    goPast clusters (!isNewline ·) clusters.length
    return .ok ()
  else addToken clusters .slash none

/-- The lexeme that begins with the cluster `c`. -/
def takeBehind (c : Cluster) : Action (Except LexicalFault Unit) :=
  match Lexeme.punctuation.lookup c, Lexeme.equalizable.lookup c with
  | some kind, _ => addToken clusters kind none
  | none, some (short, long) => equalizable clusters short long
  | none, none =>
    if c = ['/'] then slash clusters
    else if isBlank c then return .ok ()
    else if isNewline c then do
      modify State.nextLine
      return .ok ()
    else if c = quote then string clusters
    else if isDigit c then number clusters
    else if isLetter c then word clusters
    else fault .unexpectedCharacter

/-- The lexeme at the cursor. -/
def take : Action (Except LexicalFault Unit) := do
  takeBehind clusters (← advance clusters)

/-- One lexeme after another, with their faults, until no cluster is left. -/
def takeAll : (fuel : Nat) → Action Unit
  | 0 => failure
  | fuel + 1 => do
    if ← isAtEnd clusters then return ()
    modify State.begin
    match ← take clusters with
    | .ok () => takeAll fuel
    | .error f =>
      modify fun s => { s with faults := s.faults ++ [f] }
      takeAll fuel

/-- The state after a whole source, if the machine comes to an end. The end of the source is the
last token. -/
def scan : Option State :=
  let takeAllAndEnd : Action Unit := do
    takeAll clusters (clusters.length + 1)
    modify fun s => { s with tokens := s.tokens ++ [.eof s.line] }
  (takeAllAndEnd.run .new).map Prod.snd

end Actions

/-! ## States further on -/

namespace State

variable (s : State) {c : Cluster}

/-- Behind some clusters, gone past one at a time, with their line ends counted. -/
def past (cs : List Cluster) : State :=
  { s with
    current := s.current + cs.length
    line := s.line + cs.countP isNewline
    trail := s.trail ++ (List.range' (s.current + 1) cs.length).map (s.start, ·) }

/-- The start of a lexeme is no token yet. -/
@[simp]
theorem tokens_begin : s.begin.tokens = s.tokens := rfl

/-- The start of a lexeme is no fault. -/
@[simp]
theorem faults_begin : s.begin.faults = s.faults := rfl

/-- The start of a lexeme is on the line where the machine is. -/
@[simp]
theorem line_begin : s.begin.line = s.line := rfl

/-- The start of a lexeme is at the cursor. -/
@[simp]
theorem current_begin : s.begin.current = s.current := rfl

/-- To go past clusters finds no token. -/
@[simp]
theorem tokens_past (cs : List Cluster) : (s.past cs).tokens = s.tokens := rfl

/-- To go past clusters finds no fault. -/
@[simp]
theorem faults_past (cs : List Cluster) : (s.past cs).faults = s.faults := rfl

/-- Past no clusters the machine is where it was. -/
theorem past_nil : s.past [] = s := by
  simp [past]

/-- Past some clusters and then others it is past all of them. -/
theorem past_append (cs cs' : List Cluster) : (s.past cs).past cs' = s.past (cs ++ cs') := by
  have hrange : List.range' (s.current + 1) (cs.length + cs'.length) =
      List.range' (s.current + 1) cs.length ++
        List.range' (s.current + cs.length + 1) cs'.length := by
    rw [Nat.add_right_comm, List.range'_append_1]
  simp [past, hrange, Nat.add_assoc]

/-- A cluster that ends no line is gone past in one step. -/
theorem forward_eq (hc : isNewline c = false) : s.forward = s.past [c] := by
  simp [forward, past, hc]

/-- A line end is counted before the machine goes past it, or after that. -/
theorem forward_nextLine_eq (hc : isNewline c = true) :
    s.nextLine.forward = s.past [c] ∧ s.forward.nextLine = s.past [c] := by
  simp [forward, nextLine, past, hc]

/-- The state after a lexeme was taken that starts at the cursor. -/
def took (l : Lexeme) : State :=
  match l.label with
  | .token kind literal =>
    { s.past l.body with
      tokens := s.tokens ++ [⟨kind, l.text, literal, s.line + l.newlines⟩] }
  | _ => s.past l.body

end State

/-! ## Where a machine is -/

/-- The clusters `taken` of a lexeme are behind the machine, and `rest` is before it. -/
def Holds (clusters taken rest : List Cluster) (s : State) : Prop :=
  ∃ gone, clusters = gone ++ (taken ++ rest) ∧ s.start = gone.length ∧
    s.current = s.start + taken.length

/-- Between two places within the clusters there is something to cut out. -/
theorem slice_eq {before middle behind : List Cluster} {first last : Nat}
    (hfirst : first = before.length) (hlast : last = first + middle.length) (s : State) :
    (slice (before ++ (middle ++ behind)) first last).run s = some (middle, s) := by
  have hle : first ≤ last ∧ last ≤ (before ++ (middle ++ behind)).length := by
    simp only [List.length_append]
    omega
  have hextract : (before ++ (middle ++ behind)).extract first last = middle := by
    rw [List.extract_eq_take_drop, hlast, Nat.add_sub_cancel_left, hfirst, List.drop_left,
      List.take_left]
  rw [slice, if_pos hle, hextract]
  rfl

section Steps

variable {clusters taken run rest : List Cluster} {c : Cluster} {s : State}

/-- What is to come stands at the cursor and behind it. -/
theorem Holds.getElem? (h : Holds clusters taken rest s) (i : Nat) :
    clusters[s.current + i]? = rest[i]? := by
  obtain ⟨gone, rfl, hstart, hcurrent⟩ := h
  rw [hcurrent, hstart, ← List.append_assoc, List.getElem?_append_right, List.length_append]
  · congr 1
    omega
  · rw [List.length_append]
    omega

/-- The cursor is before as many clusters as are to come. -/
theorem Holds.length_eq (h : Holds clusters taken rest s) :
    clusters.length = s.current + rest.length := by
  obtain ⟨gone, rfl, hstart, hcurrent⟩ := h
  simp only [List.length_append]
  omega

/-- As much fuel as there are clusters is more than what is left of them, once one is taken. -/
theorem Holds.length_lt (h : Holds clusters (c :: taken) (run ++ rest) s) :
    run.length < clusters.length := by
  obtain ⟨gone, rfl, hstart, hcurrent⟩ := h
  simp only [List.length_append, List.length_cons]
  omega

/-- Further on, more of the clusters are taken. -/
theorem Holds.past (h : Holds clusters taken (run ++ rest) s) :
    Holds clusters (taken ++ run) rest (s.past run) := by
  obtain ⟨gone, rfl, hstart, hcurrent⟩ := h
  refine ⟨gone, by simp, hstart, ?_⟩
  simp only [State.past, hcurrent, List.length_append, Nat.add_assoc]

/-- One cluster further it belongs to the lexeme. -/
theorem Holds.forward (h : Holds clusters taken (c :: rest) s) :
    Holds clusters (taken ++ [c]) rest s.forward := by
  have hpast : Holds clusters taken ([c] ++ rest) s := h
  exact hpast.past

/-- The cluster at the cursor is the next one to come. -/
theorem Holds.peek (h : Holds clusters taken rest s) :
    (peek clusters).run s = some (rest.head?, s) := by
  have hhead := h.getElem? 0
  rw [Nat.add_zero, ← List.head?_eq_getElem?] at hhead
  simp [Machine.peek, hhead]

/-- The cluster behind that is the second one to come. -/
theorem Holds.peekNext (h : Holds clusters taken rest s) :
    (peekNext clusters).run s = some (rest[1]?, s) := by
  simp [Machine.peekNext, h.getElem? 1]

/-- The cursor is at the end if nothing is to come. -/
theorem Holds.isAtEnd (h : Holds clusters taken rest s) :
    (isAtEnd clusters).run s = some (rest.isEmpty, s) := by
  have hlength := h.length_eq
  cases rest <;> simp_all [Machine.isAtEnd]

/-- If a cluster is to come, an advance goes past it. -/
theorem Holds.advance (h : Holds clusters taken (c :: rest) s) :
    (advance clusters).run s = some (c, s.forward) := by
  simp [Machine.advance, h.peek]

/-- An expected cluster is gone past only if it comes. -/
theorem Holds.accepts (h : Holds clusters taken rest s) (expected : Cluster) :
    (accepts clusters expected).run s =
      if rest.head? = some expected then some (true, s.forward) else some (false, s) := by
  split <;> simp_all [Machine.accepts, h.peek]

/-- What is cut out is what was taken. -/
theorem Holds.body (h : Holds clusters taken rest s) :
    (body clusters).run s = some (taken, s) := by
  obtain ⟨gone, rfl, hstart, hcurrent⟩ := h
  simp [Machine.body, slice_eq hstart hcurrent]

/-- With two clusters taken there is a first and a last one to leave out. -/
theorem Holds.inner {first last : Cluster}
    (h : Holds clusters (first :: (taken ++ [last])) rest s) :
    (inner clusters).run s = some (taken, s) := by
  obtain ⟨gone, hclusters, hstart, hcurrent⟩ := h
  simp only [List.length_cons, List.length_append, List.length_nil] at hcurrent
  have hsplit : clusters = (gone ++ [first]) ++ (taken ++ last :: rest) := by simp [hclusters]
  have hslice : (slice clusters (s.start + 1) (s.current - 1)).run s = some (taken, s) := by
    rw [hsplit]
    refine slice_eq ?_ (by omega) s
    rw [List.length_append, hstart, List.length_singleton]
  have hone : 1 ≤ s.current := by omega
  simp [Machine.inner, hone, hslice]

/-- A token has the text of the lexeme, and no cut fails. -/
theorem Holds.addToken (h : Holds clusters taken rest s) (kind : TokenKind)
    (literal : Option Literal) : (addToken clusters kind literal).run s =
      some (.ok (), { s with
        tokens := s.tokens ++ [⟨kind, String.ofList taken.flatten, literal, s.line⟩] }) := by
  simp [Machine.addToken, h.body]

/-! ## What loops do -/

/-- A loop goes past the run of clusters that have the property. -/
theorem Holds.goPast {p : Cluster → Bool} {fuel : Nat} (h : Holds clusters taken (run ++ rest) s)
    (hp : ∀ c, p c = true → isNewline c = false) (hrun : ∀ c ∈ run, p c = true)
    (hrest : EndsRun p rest) (hfuel : run.length < fuel) :
    (goPast clusters p fuel).run s = some ((), s.past run) := by
  induction run generalizing taken s fuel with
  | nil =>
    -- The cluster that ends the run is looked at, so the loop needs fuel once more.
    obtain ⟨fuel, rfl⟩ := Nat.exists_eq_add_one.mpr hfuel
    have hends : rest.head?.any p = false := by
      cases rest with
      | nil => rfl
      | cons c rest => exact hrest c rfl
    simp [Machine.goPast, Holds.peek h, hends, State.past_nil]
  | cons c run ih =>
    obtain ⟨fuel, rfl⟩ := Nat.exists_eq_add_one.mpr (Nat.zero_lt_of_lt hfuel)
    obtain ⟨hc, hrun⟩ := List.forall_mem_cons.mp hrun
    have hgo := ih (Holds.forward h) hrun (Nat.lt_of_succ_lt_succ hfuel)
    rw [State.forward_eq s (hp c hc), State.past_append] at hgo
    simp [Machine.goPast, Holds.peek h, hc, Holds.advance h, State.forward_eq s (hp c hc), hgo]

/-- In a string the machine goes to the next quote, and one line further for every line end. -/
theorem Holds.goToQuote {fuel : Nat} (h : Holds clusters taken (run ++ rest) s)
    (hrun : ∀ c ∈ run, (c != quote) = true) (hrest : EndsRun (· != quote) rest)
    (hfuel : run.length < fuel) : (goToQuote clusters fuel).run s = some ((), s.past run) := by
  induction run generalizing taken s fuel with
  | nil =>
    obtain ⟨fuel, rfl⟩ := Nat.exists_eq_add_one.mpr hfuel
    cases rest with
    | nil => simp [Machine.goToQuote, Holds.peek h, State.past_nil]
    | cons c rest =>
      have hc : c = quote := by simpa using hrest c rfl
      simp [Machine.goToQuote, Holds.peek h, hc, State.past_nil]
  | cons c run ih =>
    obtain ⟨fuel, rfl⟩ := Nat.exists_eq_add_one.mpr (Nat.zero_lt_of_lt hfuel)
    obtain ⟨hc, hrun⟩ := List.forall_mem_cons.mp hrun
    rw [bne_iff_ne] at hc
    cases hnewline : isNewline c with
    | false =>
      have hgo := ih (Holds.forward h) hrun (Nat.lt_of_succ_lt_succ hfuel)
      rw [State.forward_eq s hnewline, State.past_append] at hgo
      simp [Machine.goToQuote, Holds.peek h, hc, hnewline, Holds.advance h,
        State.forward_eq s hnewline, hgo]
    | true =>
      -- The line is counted before the cluster is gone past, which changes neither index.
      have hbelow : Holds clusters taken (c :: (run ++ rest)) s.nextLine := h
      have hgo := ih hbelow.forward hrun (Nat.lt_of_succ_lt_succ hfuel)
      rw [(State.forward_nextLine_eq s hnewline).1, State.past_append] at hgo
      simp [Machine.goToQuote, Holds.peek h, hc, hnewline, hbelow.advance,
        (State.forward_nextLine_eq s hnewline).1, hgo]

end Steps

/-! ## Taking one lexeme -/

/-- The fault that a lexeme is, if it is one, on the given line. -/
def outcome (l : Lexeme) (line : Nat) : Except LexicalFault Unit :=
  match l.label with
  | .fault cause => .error ⟨cause, line⟩
  | _ => .ok ()

/-- What taking a lexeme comes to. -/
def taking (s : State) (l : Lexeme) : Option (Except LexicalFault Unit × State) :=
  some (outcome l (s.line + l.newlines), s.took l)

section Lexemes

open Lexeme (tokenOf nextEqualizable nextSlash nextString nextNumber nextWord numberOf)

variable {clusters body rest : List Cluster} {c : Cluster} {s : State}

/-- Behind its clusters a token is found. -/
theorem Holds.token (h : Holds clusters body rest (s.past body)) (kind : TokenKind)
    (literal : Option Literal) :
    (Machine.addToken clusters kind literal).run (s.past body) =
      taking s ⟨.token kind literal, body⟩ :=
  h.addToken kind literal

/-- A fault is reported on the line behind what was gone past. -/
theorem fault_past (cause : LexicalCause) (s : State) (body : List Cluster) :
    (fault cause).run (s.past body) = taking s ⟨.fault cause, body⟩ := rfl

/-- Further on in the same lexeme. -/
theorem Holds.on {run : List Cluster} (h : Holds clusters body (run ++ rest) (s.past body)) :
    Holds clusters (body ++ run) rest (s.past (body ++ run)) :=
  State.past_append s body run ▸ h.past

/-- One cluster further in the same lexeme. -/
theorem Holds.on_singleton (h : Holds clusters body (c :: rest) (s.past body)) :
    Holds clusters (body ++ [c]) rest (s.past (body ++ [c])) := by
  have hon : Holds clusters body ([c] ++ rest) (s.past body) := h
  exact hon.on

/-- A lexeme goes on with all clusters that have a property and end no line. -/
theorem Holds.goPast_takeWhile {p : Cluster → Bool}
    (h : Holds clusters (c :: body) rest (s.past (c :: body)))
    (hp : ∀ c, p c = true → isNewline c = false) :
    (Machine.goPast clusters p clusters.length).run (s.past (c :: body)) =
        some ((), s.past (c :: (body ++ rest.takeWhile p))) ∧
      Holds clusters (c :: (body ++ rest.takeWhile p)) (rest.dropWhile p)
        (s.past (c :: (body ++ rest.takeWhile p))) := by
  have hsplit : rest.takeWhile p ++ rest.dropWhile p = rest := List.takeWhile_append_dropWhile
  rw [← hsplit] at h
  have hgo := h.goPast hp (Lexeme.forall_mem_takeWhile p rest) (Lexeme.endsRun_dropWhile p rest)
    h.length_lt
  rw [State.past_append] at hgo
  exact ⟨hgo, h.on⟩

/-- Punctuation is taken with the equals sign behind it, if there is one, as a step does. -/
theorem Holds.equalizable (h : Holds clusters [c] rest (s.past [c])) (short long : TokenKind) :
    (Machine.equalizable clusters short long).run (s.past [c]) =
      taking s (nextEqualizable short long c rest).1 := by
  unfold nextEqualizable
  split
  · next rest =>
    have hlong : Holds clusters [c, ['=']] rest (s.past [c, ['=']]) := h.on_singleton
    simp [Machine.equalizable, h.accepts, State.forward_eq (c := ['=']) _ rfl, State.past_append,
      hlong.token, tokenOf]
  · next hne =>
    simp [Machine.equalizable, h.accepts, Lexeme.head?_ne_some hne, h.token, tokenOf]

/-- A comment or a slash is taken as a step does. -/
theorem Holds.slash (h : Holds clusters [['/']] rest (s.past [['/']])) :
    (Machine.slash clusters).run (s.past [['/']]) = taking s (nextSlash ['/'] rest).1 := by
  unfold nextSlash
  split
  · next rest =>
    have hslash : Holds clusters [['/'], ['/']] rest (s.past [['/'], ['/']]) := h.on_singleton
    obtain ⟨hgo, -⟩ := hslash.goPast_takeWhile (p := (!isNewline ·)) (by simp)
    simp [Machine.slash, h.accepts, State.forward_eq (c := ['/']) _ rfl, State.past_append, hgo,
      taking, outcome, State.took]
  · next hne =>
    simp [Machine.slash, h.accepts, Lexeme.head?_ne_some hne, h.token, tokenOf]

/-- A string is taken as a step does, with its line ends counted one by one. -/
theorem Holds.string (h : Holds clusters [quote] rest (s.past [quote])) :
    (Machine.string clusters).run (s.past [quote]) = taking s (nextString quote rest).1 := by
  have hrun := Lexeme.forall_mem_takeWhile (· != quote) rest
  have hends := Lexeme.endsRun_dropWhile (· != quote) rest
  have hrest : rest.takeWhile (· != quote) ++ rest.dropWhile (· != quote) = rest :=
    List.takeWhile_append_dropWhile
  unfold nextString
  generalize rest.takeWhile (· != quote) = run at *
  generalize rest.dropWhile (· != quote) = tail at *
  rw [← hrest] at h
  have hgo := h.goToQuote hrun hends h.length_lt
  rw [State.past_append, List.singleton_append] at hgo
  have hbehind : Holds clusters (quote :: run) tail (s.past (quote :: run)) := h.on
  -- Either all clusters have been gone past, or the loop has stopped at a quote.
  cases tail with
  | nil =>
    simp [Machine.string, hgo, hbehind.isAtEnd, fault_past]
  | cons close tail =>
    obtain rfl : close = quote := by simpa using hends close rfl
    have hclosed : Holds clusters (quote :: (run ++ [quote])) tail
        (s.past (quote :: (run ++ [quote]))) := hbehind.on_singleton
    simp [Machine.string, hgo, hbehind.isAtEnd, hbehind.advance,
      State.forward_eq (c := quote) _ rfl, State.past_append, hclosed.inner, hclosed.token]

/-- Without a digit behind a point there is no fraction. -/
theorem Holds.fraction_eq_of_not (h : Holds clusters body rest s)
    (hrest : Lexeme.beginsFraction rest = false) :
    (Machine.fraction clusters).run s = some ((), s) := by
  have hnot : ¬(rest.head? = some ['.'] ∧ rest[1]?.any isDigit = true) := by
    rintro ⟨hpoint, hdigit⟩
    obtain ⟨tail, rfl⟩ := List.head?_eq_some_iff.mp hpoint
    cases tail with
    | nil => simp at hdigit
    | cons d tail => simp_all [Lexeme.beginsFraction]
  simp [Machine.fraction, h.peek, h.peekNext, hnot]

/-- A point and the digits behind it are gone past. -/
theorem Holds.fraction {d : Cluster}
    (h : Holds clusters (c :: body) (['.'] :: d :: rest) (s.past (c :: body)))
    (hd : isDigit d = true) :
    (Machine.fraction clusters).run (s.past (c :: body)) =
        some ((), s.past (c :: (body ++ ['.'] :: d :: rest.takeWhile isDigit))) ∧
      Holds clusters (c :: (body ++ ['.'] :: d :: rest.takeWhile isDigit)) (rest.dropWhile isDigit)
        (s.past (c :: (body ++ ['.'] :: d :: rest.takeWhile isDigit))) := by
  -- The point is gone past first, and then the digits behind it as those in front were.
  have hpoint : Holds clusters (c :: (body ++ [['.']])) (d :: rest)
      (s.past (c :: (body ++ [['.']]))) := h.on_singleton
  obtain ⟨hgo, hbehind⟩ := hpoint.goPast_takeWhile (p := isDigit) fun _ =>
    Lexeme.isNewline_of_isDigit
  rw [List.takeWhile_cons_of_pos hd, List.append_assoc, List.singleton_append] at hgo hbehind
  rw [List.dropWhile_cons_of_pos hd] at hbehind
  refine ⟨?_, hbehind⟩
  simp [Machine.fraction, h.peek, h.peekNext, h.advance, hd, State.forward_eq (c := ['.']) _ rfl,
    State.past_append, hgo]

/-- Behind its clusters a number is read from them. -/
theorem Holds.readNumber (h : Holds clusters body rest (s.past body)) :
    (Machine.readNumber clusters).run (s.past body) = taking s (numberOf body rest).1 := by
  unfold numberOf Lexeme.numberLabel
  cases hread : Number.ofText? body.flatten with
  | none => simp [Machine.readNumber, h.body, hread, fault_past]
  | some x => simp [Machine.readNumber, h.body, hread, h.token]

/-- A number is taken as a step does. -/
theorem Holds.number (h : Holds clusters [c] rest (s.past [c])) :
    (Machine.number clusters).run (s.past [c]) = taking s (nextNumber c rest).1 := by
  obtain ⟨hgo, hwhole⟩ := h.goPast_takeWhile (p := isDigit) fun _ => Lexeme.isNewline_of_isDigit
  rw [List.nil_append] at hgo hwhole
  unfold nextNumber
  generalize rest.takeWhile isDigit = run at *
  generalize rest.dropWhile isDigit = tail at *
  -- A point ends the digits, and only a digit behind it makes a fraction.
  split
  · next d tail =>
    split
    · next hd =>
      obtain ⟨hfraction, hbehind⟩ := hwhole.fraction hd
      simp [Machine.number, hgo, hfraction, hbehind.readNumber, numberOf]
    · next hd =>
      have hfraction := hwhole.fraction_eq_of_not (by simp [Lexeme.beginsFraction, hd])
      simp [Machine.number, hgo, hfraction, hwhole.readNumber, numberOf]
  · next hne =>
    have hfraction := hwhole.fraction_eq_of_not (Lexeme.beginsFraction_eq_false hne)
    simp [Machine.number, hgo, hfraction, hwhole.readNumber, numberOf]

/-- A word is taken as a step does. -/
theorem Holds.word (h : Holds clusters [c] rest (s.past [c])) :
    (Machine.word clusters).run (s.past [c]) = taking s (nextWord c rest).1 := by
  obtain ⟨hgo, hbehind⟩ := h.goPast_takeWhile (p := isWordPart) fun _ =>
    Lexeme.isNewline_of_isWordPart
  rw [List.nil_append] at hgo hbehind
  simp [Machine.word, hgo, hbehind.body, hbehind.token, nextWord, tokenOf]

/-- The cluster that was gone past decides what is taken, as it does in a step. -/
theorem Holds.takeBehind (h : Holds clusters [c] rest s.forward) :
    (Machine.takeBehind clusters c).run s.forward = taking s (Lexeme.next c rest).1 := by
  cases hnewline : isNewline c with
  | true =>
    -- No lexeme but a line end begins with one, and its line is counted behind it.
    simp only [isNewline, Bool.or_eq_true, beq_iff_eq] at hnewline
    rcases hnewline with rfl | rfl <;> rfl
  | false =>
    rw [State.forward_eq s hnewline] at h ⊢
    unfold Machine.takeBehind Lexeme.next
    -- Both ask the same questions about the cluster, in the same order.
    cases Lexeme.punctuation.lookup c with
    | some kind => exact h.token kind none
    | none =>
      cases Lexeme.equalizable.lookup c with
      | some kinds => exact h.equalizable kinds.1 kinds.2
      | none =>
        simp only [hnewline, Bool.or_false, Bool.false_eq_true, if_false]
        split
        · next hslash =>
          subst hslash
          exact h.slash
        · split
          · rfl
          · split
            · next hquote =>
              subst hquote
              exact h.string
            · split
              · exact h.number
              · split
                · exact h.word
                · exact fault_past .unexpectedCharacter s [c]

/-- The machine takes the lexeme that a step takes. -/
theorem Holds.take (h : Holds clusters [] (c :: rest) s) :
    (Machine.take clusters).run s = taking s (Lexeme.next c rest).1 := by
  have hforward : Holds clusters [c] rest s.forward := h.forward
  simp [Machine.take, h.advance, hforward.takeBehind]

end Lexemes

/-! ## Taking all lexemes -/

/-- The clusters `rest` are before the machine. -/
def Stands (clusters rest : List Cluster) (s : State) : Prop :=
  ∃ gone, clusters = gone ++ rest ∧ s.current = gone.length

/-- The state after one more lexeme, which is a token or a fault on the line where it ends. -/
def State.next (s : State) (l : Lexeme) : State :=
  let line := s.line + l.newlines
  match l.label with
  | .token kind literal =>
    { s.begin.past l.body with tokens := s.tokens ++ [⟨kind, l.text, literal, line⟩] }
  | .trivia => s.begin.past l.body
  | .fault cause => { s.begin.past l.body with faults := s.faults ++ [⟨cause, line⟩] }

/-- Where a machine is while it takes lexemes, when the first of them starts at the index `n`: from
the start of each to its end. -/
def stops (n : Nat) : List Lexeme → List (Nat × Nat)
  | [] => []
  | l :: ls => (List.range' n (l.body.length + 1)).map (n, ·) ++ stops (n + l.body.length) ls

section All

variable {clusters rest : List Cluster} {c : Cluster} {s : State}

/-- Where a lexeme starts, nothing of it has been taken. -/
theorem Stands.begin (h : Stands clusters rest s) : Holds clusters [] rest s.begin := by
  obtain ⟨gone, hclusters, hcurrent⟩ := h
  exact ⟨gone, hclusters, hcurrent, rfl⟩

/-- Every lexeme moves the machine in the same way. -/
theorem State.next_eq (s : State) (l : Lexeme) :
    (s.next l).current = s.current + l.body.length ∧ (s.next l).line = s.line + l.newlines ∧
      (s.next l).trail =
        s.trail ++ (List.range' s.current (l.body.length + 1)).map (s.current, ·) := by
  unfold next
  cases l.label <;> simp [past, begin, Lexeme.newlines, List.range'_succ]

/-- Behind a lexeme the clusters that follow it are before the machine. -/
theorem Stands.next {l : Lexeme} (h : Stands clusters (l.body ++ rest) s) :
    Stands clusters rest (s.next l) := by
  obtain ⟨gone, hclusters, hcurrent⟩ := h
  refine ⟨gone ++ l.body, by rw [hclusters, List.append_assoc], ?_⟩
  rw [(s.next_eq l).1, hcurrent, List.length_append]

/-- After a lexeme the loop goes on, with a fault written down if the lexeme is one. -/
theorem takeAll_succ {fuel : Nat} {l : Lexeme} (h : (isAtEnd clusters).run s = some (false, s))
    (hl : (take clusters).run s.begin = taking s.begin l) :
    (takeAll clusters (fuel + 1)).run s = (takeAll clusters fuel).run (s.next l) := by
  unfold taking outcome State.took at hl
  unfold State.next
  -- A fault is written down behind the lexeme, and a token while it is taken.
  cases hlabel : l.label with
  | token kind literal =>
    rw [hlabel] at hl
    simp [takeAll, h, hl]
  | trivia =>
    rw [hlabel] at hl
    simp [takeAll, h, hl]
  | fault cause =>
    rw [hlabel] at hl
    simp [takeAll, h, hl]

/-- The machine is at the end if no cluster is before it. -/
theorem Stands.isAtEnd (h : Stands clusters rest s) :
    (Machine.isAtEnd clusters).run s = some (rest.isEmpty, s) := by
  obtain ⟨gone, rfl, hcurrent⟩ := h
  cases rest <;> simp [Machine.isAtEnd, hcurrent]

/-- The machine takes one lexeme after another, as they are listed. -/
theorem Stands.takeAll {fuel : Nat} (h : Stands clusters rest s) (hfuel : rest.length < fuel) :
    (Machine.takeAll clusters fuel).run s = some ((), (Lexeme.all rest).foldl State.next s) := by
  fun_induction Lexeme.all rest generalizing s fuel with
  | case1 =>
    obtain ⟨fuel, rfl⟩ := Nat.exists_eq_add_one.mpr (Nat.zero_lt_of_lt hfuel)
    simp [Machine.takeAll, h.isAtEnd]
  | case2 c rest ih =>
    obtain ⟨fuel, rfl⟩ := Nat.exists_eq_add_one.mpr (Nat.zero_lt_of_lt hfuel)
    rw [takeAll_succ h.isAtEnd h.begin.take, List.foldl_cons]
    -- What is left is shorter, so that the fuel for it is enough again.
    have hlength := Lexeme.length_next_le c rest
    rw [List.length_cons] at hfuel
    rw [← Lexeme.next_append] at h
    exact ih h.next (by omega)

/-- The tokens, the faults and the line of lexemes are those of their scan. -/
theorem foldl_next_eq (s : State) (ls : List Lexeme) :
    (ls.foldl State.next s).tokens = s.tokens ++ (ofLexemes s.line ls).tokens ∧
      (ls.foldl State.next s).faults = s.faults ++ (ofLexemes s.line ls).faults ∧
      (ls.foldl State.next s).line = (ofLexemes s.line ls).line ∧
      (ls.foldl State.next s).trail = s.trail ++ stops s.current ls := by
  -- Each lexeme moves the line and the cursor, so the state is arbitrary in the induction.
  induction ls generalizing s with
  | nil => simp [ofLexemes, stops]
  | cons l ls ih =>
    obtain ⟨htokens, hfaults, hline, htrail⟩ := ih (s.next l)
    obtain ⟨hcurrent, hnext, hstops⟩ := s.next_eq l
    rw [hnext] at htokens hfaults hline
    rw [hcurrent, hstops] at htrail
    rw [List.foldl_cons, htokens, hfaults, hline, htrail, ofLexemes, stops, List.append_assoc]
    unfold State.next
    cases l.label <;> simp

/-- From the start of a lexeme to its end a machine has taken more and more of its clusters. -/
theorem mem_map_range'_iff {n start current : Nat} {body : List Cluster} :
    (start, current) ∈ (List.range' n (body.length + 1)).map (n, ·) ↔
      ∃ taken, taken <+: body ∧ start = n ∧ current = n + taken.length := by
  simp only [List.mem_map, List.mem_range'_1, Prod.mk.injEq]
  constructor
  · rintro ⟨m, ⟨hle, hlt⟩, rfl, rfl⟩
    refine ⟨body.take (m - n), List.take_prefix _ _, rfl, ?_⟩
    rw [List.length_take]
    omega
  · rintro ⟨taken, htaken, rfl, rfl⟩
    have hlength := htaken.length_le
    exact ⟨_, ⟨by omega, by omega⟩, rfl, rfl⟩

/-- Where a machine is while it takes lexemes: as far behind the start of one of them as some of its
clusters go. -/
theorem mem_stops_iff {n start current : Nat} {ls : List Lexeme} :
    (start, current) ∈ stops n ls ↔ ∃ before l after taken, ls = before ++ l :: after ∧
      taken <+: l.body ∧ start = n + (before.map Lexeme.body).flatten.length ∧
      current = start + taken.length := by
  induction ls generalizing n with
  | nil => simp [stops]
  | cons first ls ih =>
    have hlength (before : List Lexeme) : n + first.body.length +
        (before.map Lexeme.body).flatten.length =
          n + ((first :: before).map Lexeme.body).flatten.length := by
      rw [List.map_cons, List.flatten_cons, List.length_append, Nat.add_assoc]
    rw [stops, List.mem_append, mem_map_range'_iff, ih]
    -- A place belongs to the first lexeme or to a later one, which starts behind it.
    constructor
    · rintro (⟨taken, htaken, rfl, hcurrent⟩ |
        ⟨before, l, after, taken, rfl, htaken, hstart, hcurrent⟩)
      · exact ⟨[], first, ls, taken, rfl, htaken, rfl, hcurrent⟩
      · exact ⟨first :: before, l, after, taken, rfl, htaken, hstart.trans (hlength before),
          hcurrent⟩
    · rintro ⟨before, l, after, taken, hls, htaken, hstart, hcurrent⟩
      cases before with
      | nil =>
        obtain ⟨rfl, rfl⟩ := List.cons.inj hls
        obtain rfl : start = n := hstart
        exact .inl ⟨taken, htaken, rfl, hcurrent⟩
      | cons l' before =>
        obtain ⟨rfl, rfl⟩ := List.cons.inj hls
        exact .inr ⟨before, l, after, taken, rfl, htaken, hstart.trans (hlength before).symm,
          hcurrent⟩

/-- The machine comes to an end with the scan of the clusters. It was at the first cluster, and then
from the start of each lexeme to its end. -/
theorem scan_eq (clusters : List Cluster) : ∃ s, scan clusters = some s ∧
    s.tokens = (ofClusters clusters).allTokens ∧ s.faults = (ofClusters clusters).faults ∧
    s.line = (ofClusters clusters).line ∧ s.trail = (0, 0) :: stops 0 (Lexeme.all clusters) := by
  have hstands : Stands clusters clusters .new := ⟨[], rfl, rfl⟩
  have hall := hstands.takeAll (Nat.lt_succ_self _)
  obtain ⟨htokens, hfaults, hline, htrail⟩ := foldl_next_eq .new (Lexeme.all clusters)
  have hscan : scan clusters = some { (Lexeme.all clusters).foldl State.next .new with
      tokens := ((Lexeme.all clusters).foldl State.next .new).tokens ++
        [.eof ((Lexeme.all clusters).foldl State.next .new).line] } := by
    simp [scan, hall]
  refine ⟨_, hscan, ?_, hfaults, hline, htrail⟩
  rw [htokens, hline]
  rfl

end All

end LoxCalc.Scan.Machine
