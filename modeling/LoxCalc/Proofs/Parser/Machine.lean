import LoxCalc.Proofs.Parser.Cursor

/-!
# Parsers as machines

A parser can be run as a machine that walks over its token list. Its state is the index of the token
it looks at and the number of groupings and prefix operators it is in, and every rule of the grammar
is an action on that state. An action has no result if it looks where there is no token, if it
leaves a nesting that it is not in, or if its rules call each other deeper than their fuel lets
them, as they do if they never end. Nothing in the machine keeps it from any of that: no action
knows where the end is, and a list may hold ends anywhere.

The lemmas behind the definitions say what each step does where the machine stands before tokens
without an end among them (`Stands`). Going on never skips an index, so the cursor and the depth of
nesting determine the whole state (`State.at`).
-/

namespace LoxCalc.Machine

open Grammar (operators)

/-- Where a machine stands. -/
structure State where
  /-- The index of the token that it looks at. -/
  current : Nat
  /-- How many groupings and prefix operators it is in. -/
  depth : Nat
  /-- All indices that it has looked from, the latest first. -/
  trail : List Nat
  deriving DecidableEq

/-- Before the first token. -/
def State.start : State := ⟨0, 0, [0]⟩

/-- One token further. -/
def State.forward (s : State) : State :=
  { s with current := s.current + 1, trail := (s.current + 1) :: s.trail }

/-- What a machine does from a state: a value and the state after it, if there is one. -/
abbrev Action := StateT State Option

section Actions

variable (tokens : List Token)

/-! ## Steps -/

/-- The token at an index; there is no other way to a token. -/
def look (i : Nat) : Action Token := fun s => tokens[i]?.map (·, s)

/-- The token at the cursor. -/
def peek : Action Token := do look tokens (← get).current

/-- The token before the cursor, or the one at it if it is the first. -/
def previous : Action Token := do look tokens ((← get).current - 1)

/-- Whether the token at the cursor is the end. -/
def isAtEnd : Action Bool := do return (← peek tokens).kind = .eof

/-- Goes one token further, but not beyond an end. -/
def advance : Action Token := do
  unless ← isAtEnd tokens do modify State.forward
  previous tokens

/-- Whether a token of the given kind is at the cursor. -/
def check (kind : TokenKind) : Action Bool := do
  if ← isAtEnd tokens then return false
  return (← peek tokens).kind = kind

/-- Goes past the token at the cursor if it is of one of the given kinds. -/
def accepts : List TokenKind → Action Bool
  | [] => return false
  | kind :: kinds => do
    if ← check tokens kind then
      let _ ← advance tokens
      return true
    accepts kinds

/-- Enters the nesting that a token opens, if it is not one too many. -/
def enter (t : Token) : Action (Except GrammarFault Unit) := do
  if maxNesting ≤ (← get).depth then return .error ⟨.tooMuchNesting, t⟩
  modify fun s => { s with depth := s.depth + 1 }
  return .ok ()

/-- Leaves a nesting. There is no result if there is none to leave. -/
def leave : Action Unit := fun s =>
  match s.depth with
  | 0 => none
  | depth + 1 => some ((), { s with depth })

/-- Goes past the parenthesis that closes the expression `e`. -/
def close (e : Expr) : Action (Except GrammarFault Expr) := do
  if ← check tokens .rightParen then
    let _ ← advance tokens
    return .ok (.grouping e)
  else return .error ⟨.expectedRightParenthesis, ← peek tokens⟩

/-! ## Rules

Each rule has no result once rules have called each other `fuel` deep. -/

mutual

/-- A chain of operators of a level. -/
def chain (level : Level) : (fuel : Nat) → Action (Except GrammarFault Expr)
  | 0 => failure
  | fuel + 1 => do
    match ← operand level fuel with
    | .ok left => chainFrom level left fuel
    | .error f => return .error f

/-- An operand of a level. -/
def operand (level : Level) : (fuel : Nat) → Action (Except GrammarFault Expr)
  | 0 => failure
  | fuel + 1 =>
    match level with
    | .equality => chain .comparison fuel
    | .comparison => chain .term fuel
    | .term => chain .factor fuel
    | .factor => unary fuel

/-- The rest of a chain whose tree so far is `left`. -/
def chainFrom (level : Level) (left : Expr) : (fuel : Nat) → Action (Except GrammarFault Expr)
  | 0 => failure
  | fuel + 1 => do
    if ← accepts tokens (operators level) then
      let operator ← previous tokens
      match ← operand level fuel with
      | .ok right => chainFrom level (.binary left operator right) fuel
      | .error f => return .error f
    else return .ok left

/-- Prefix operators and what they apply to. -/
def unary : (fuel : Nat) → Action (Except GrammarFault Expr)
  | 0 => failure
  | fuel + 1 => do
    if ← accepts tokens [.bang, .minus] then
      let operator ← previous tokens
      match ← enter operator with
      | .ok () =>
        let right ← unary fuel
        -- The nesting is left also if the operand is at fault.
        leave
        return right.map (.unary operator)
      | .error f => return .error f
    else primary fuel

/-- A literal, or a parenthesized expression. -/
def primary : (fuel : Nat) → Action (Except GrammarFault Expr)
  | 0 => failure
  | fuel + 1 => do
    if ← accepts tokens [.trueWord] then return .ok (.literal .true)
    if ← accepts tokens [.falseWord] then return .ok (.literal .false)
    if ← accepts tokens [.nilWord] then return .ok (.literal .nil)
    if ← accepts tokens [.number, .string] then
      let t ← previous tokens
      match t.literal with
      | some value => return .ok (.literal value)
      | none => return .error ⟨.expectedExpression, t⟩
    if ← accepts tokens [.leftParen] then
      let opening ← previous tokens
      match ← enter opening with
      | .ok () =>
        let inner ← chain .equality fuel
        leave
        match inner with
        | .ok e => close tokens e
        | .error f => return .error f
      | .error f => return .error f
    else return .error ⟨.expectedExpression, ← peek tokens⟩

end

/-- Goes on to the first place where a statement could begin. -/
def skip : (fuel : Nat) → Action Unit
  | 0 => failure
  | fuel + 1 => do
    if ← isAtEnd tokens then return
    if (← previous tokens).kind = .semicolon then return
    if (← peek tokens).kind.startsStatement then return
    let _ ← advance tokens
    skip fuel

/-- What a machine does after a fault. -/
def synchronize : Action Unit := do
  let _ ← advance tokens
  skip tokens tokens.length

/-- Parses one expression. The rules from a chain of equality down to a literal are ten. -/
def parse : Action (Except GrammarFault Expr) := do
  match ← chain tokens .equality (10 * tokens.length) with
  | .ok e => return .ok e
  | .error f =>
    synchronize tokens
    return .error f

/-- The state after some calls of `parse` on a new machine. -/
def after : Nat → Option State
  | 0 => some .start
  | calls + 1 => (after calls).bind fun s => (parse tokens s).map Prod.snd

end Actions

/-! ## Where a machine stands -/

/-- A token list cut at its first end. -/
structure Cut where
  /-- The tokens before the end. -/
  before : List Token
  /-- The end. -/
  eof : Token
  /-- What stands behind it. -/
  behind : List Token
  /-- There is no end among the tokens before it. -/
  kind_ne_eof : ∀ t ∈ before, t.kind ≠ .eof
  /-- The end is one. -/
  kind_eof : eof.kind = .eof

/-- The whole token list. -/
def Cut.tokens (c : Cut) : List Token := c.before ++ c.eof :: c.behind

/-- The state at an index that was reached by going one token further at a time. -/
def State.at (n depth : Nat) : State := ⟨n, depth, (List.range (n + 1)).reverse⟩

/-- The cursor of such a state is where it is said to be. -/
@[simp]
theorem State.current_at (n depth : Nat) : (State.at n depth).current = n := rfl

/-- Its depth is the one that is given. -/
@[simp]
theorem State.depth_at (n depth : Nat) : (State.at n depth).depth = depth := rfl

/-- The cursor has been at every index up to where it is. -/
theorem State.mem_trail_at (n depth i : Nat) : i ∈ (State.at n depth).trail ↔ i ≤ n := by
  rw [State.at, List.mem_reverse, List.mem_range, Nat.lt_succ_iff]

/-- A machine at the index `n` stands before the tokens `ts`, and then the end. -/
def Stands (c : Cut) (ts : List Token) (n : Nat) : Prop :=
  ∃ consumed, c.before = consumed ++ ts ∧ consumed.length = n

/-- One step further the trail is one index longer. -/
theorem State.forward_at (n depth : Nat) : (State.at n depth).forward = .at (n + 1) depth := by
  rw [State.at, State.forward, State.at, List.range_succ (n := n + 1), List.reverse_append]
  rfl

/-- An action goes on from where the one before it ended. -/
theorem bind_of_eq {α β : Type} {x : Action α} {f : α → Action β} {s s' : State} {a : α}
    (h : x s = some (a, s')) : (x >>= f) s = f a s' := by
  simp [bind, StateT.bind, h]

section Steps

variable {c : Cut} {t : Token} {ts : List Token} {n depth : Nat}

/-- Where the cursor stands is what is left subtracted from all there is. -/
theorem Stands.length_eq (h : Stands c ts n) : n + ts.length = c.before.length := by
  obtain ⟨consumed, hbefore, rfl⟩ := h
  rw [hbefore, List.length_append]

/-- With the same tokens left the cursor is at one place. -/
theorem Stands.unique {n' : Nat} (h : Stands c ts n) (h' : Stands c ts n') : n = n' := by
  have := h.length_eq
  have := h'.length_eq
  omega

/-- No token that is left is an end. -/
theorem Stands.kind_ne_eof (h : Stands c (t :: ts) n) : t.kind ≠ .eof := by
  obtain ⟨consumed, hbefore, -⟩ := h
  refine c.kind_ne_eof t ?_
  rw [hbefore]
  exact List.mem_append_right _ List.mem_cons_self

/-- Behind the next token stands what is left then. -/
theorem Stands.forward (h : Stands c (t :: ts) n) : Stands c ts (n + 1) := by
  obtain ⟨consumed, hbefore, rfl⟩ := h
  refine ⟨consumed ++ [t], ?_, ?_⟩
  · rw [hbefore, List.append_assoc, List.singleton_append]
  · rw [List.length_append, List.length_singleton]

/-- The token at the index is the next one, or the end. -/
theorem Stands.getElem? (h : Stands c ts n) : c.tokens[n]? = some (ts.headD c.eof) := by
  obtain ⟨consumed, hbefore, rfl⟩ := h
  rw [Cut.tokens, hbefore, List.append_assoc, List.getElem?_append_right (Nat.le_refl _),
    Nat.sub_self]
  cases ts <;> rfl

/-- To look at a token changes nothing. -/
theorem look_eq {tokens : List Token} {i : Nat} (h : tokens[i]? = some t) (s : State) :
    look tokens i s = some (t, s) := by
  rw [look, h]
  rfl

/-- The token at the cursor is the first that is left, or the end. -/
theorem Stands.peek (h : Stands c ts n) :
    peek c.tokens (.at n depth) = some (ts.headD c.eof, .at n depth) :=
  look_eq h.getElem? _

/-- The cursor is at the end if no token is left. -/
theorem Stands.isAtEnd (h : Stands c ts n) :
    isAtEnd c.tokens (.at n depth) = some (ts.isEmpty, .at n depth) := by
  rw [Machine.isAtEnd, bind_of_eq h.peek]
  cases ts with
  | nil => rw [List.headD_nil, c.kind_eof]; rfl
  | cons t ts =>
    have hkind : decide (t.kind = .eof) = false := decide_eq_false h.kind_ne_eof
    rw [List.headD_cons, hkind]; rfl

/-- Behind a token the token is the previous one. -/
theorem Stands.previous (h : Stands c (t :: ts) n) :
    previous c.tokens (.at (n + 1) depth) = some (t, .at (n + 1) depth) :=
  look_eq h.getElem? _

/-- An advance gives the next token and goes past it. -/
theorem Stands.advance (h : Stands c (t :: ts) n) :
    advance c.tokens (.at n depth) = some (t, .at (n + 1) depth) := by
  rw [Machine.advance, bind_of_eq h.isAtEnd, List.isEmpty_cons, if_neg Bool.false_ne_true]
  have hmove : (modify State.forward : Action PUnit) (.at n depth) = some ((), .at (n + 1) depth) :=
    congrArg (fun s => some ((), s)) (State.forward_at n depth)
  rw [bind_of_eq hmove]
  exact h.previous

/-- At the end the cursor stays, and there is a token to return. -/
theorem Stands.advance_nil (h : Stands c [] n) (depth : Nat) :
    ∃ t, Machine.advance c.tokens (.at n depth) = some (t, .at n depth) := by
  have hlt : n - 1 < c.tokens.length := by
    have hlen := h.length_eq
    rw [List.length_nil] at hlen
    rw [Cut.tokens, List.length_append, List.length_cons]
    omega
  refine ⟨c.tokens[n - 1], ?_⟩
  rw [Machine.advance, bind_of_eq h.isAtEnd, List.isEmpty_nil, if_pos rfl]
  exact look_eq (List.getElem?_eq_getElem hlt) _

/-- A check compares the kind of the next token. -/
theorem Stands.check (h : Stands c (t :: ts) n) (kind : TokenKind) :
    check c.tokens kind (.at n depth) = some (decide (t.kind = kind), .at n depth) := by
  rw [Machine.check, bind_of_eq h.isAtEnd, List.isEmpty_cons, if_neg Bool.false_ne_true,
    bind_of_eq h.peek]
  rfl

/-- No check succeeds at the end. -/
theorem Stands.check_nil (h : Stands c [] n) (kind : TokenKind) :
    Machine.check c.tokens kind (.at n depth) = some (false, .at n depth) := by
  rw [Machine.check, bind_of_eq h.isAtEnd, List.isEmpty_nil, if_pos rfl]
  rfl

/-- A token of one of the given kinds is gone past. -/
theorem Stands.accepts (h : Stands c (t :: ts) n) {kinds : List TokenKind} (hk : t.kind ∈ kinds) :
    accepts c.tokens kinds (.at n depth) = some (true, .at (n + 1) depth) := by
  induction kinds with
  | nil => cases hk
  | cons kind kinds ih =>
    rw [Machine.accepts, bind_of_eq (h.check kind)]
    by_cases hkind : t.kind = kind
    · rw [if_pos (decide_eq_true hkind), bind_of_eq h.advance]
      rfl
    · rw [if_neg (by simpa using hkind)]
      exact ih ((List.mem_cons.mp hk).resolve_left hkind)

/-- Any other token, and the end, is not. -/
theorem Stands.accepts_not (h : Stands c ts n) {kinds : List TokenKind}
    (hk : ∀ t ∈ ts.head?, t.kind ∉ kinds) :
    Machine.accepts c.tokens kinds (.at n depth) = some (false, .at n depth) := by
  -- The kinds are checked in order, and each check leaves the cursor where it is.
  induction kinds with
  | nil => rfl
  | cons kind kinds ih =>
    have hcheck : Machine.check c.tokens kind (.at n depth) = some (false, .at n depth) := by
      cases ts with
      | nil => exact h.check_nil kind
      | cons t ts =>
        have hkind : t.kind ≠ kind := fun heq => hk t rfl (heq ▸ List.mem_cons_self)
        rw [h.check kind, decide_eq_false hkind]
    rw [Machine.accepts, bind_of_eq hcheck, if_neg Bool.false_ne_true]
    exact ih fun t ht hmem => hk t ht (List.mem_cons_of_mem kind hmem)

/-- The state is read as it is. -/
theorem get_eq (s : State) : (get : Action State) s = some (s, s) := rfl

/-- Below the limit one more level is entered. -/
theorem enter_of_lt (t : Token) (h : depth < maxNesting) :
    enter t (.at n depth) = some (.ok (), .at n (depth + 1)) := by
  rw [enter, bind_of_eq (get_eq _), State.depth_at, if_neg (Nat.not_le_of_lt h)]
  rfl

/-- At the limit no level is entered, which is an error at the token. -/
theorem enter_of_eq (t : Token) (h : depth = maxNesting) :
    enter t (.at n depth) = some (.error ⟨.tooMuchNesting, t⟩, .at n depth) := by
  rw [enter, bind_of_eq (get_eq _), State.depth_at, if_pos (Nat.le_of_eq h.symm)]
  rfl

/-- A level that has been entered is left. -/
theorem leave_at : leave (.at n (depth + 1)) = some ((), .at n depth) := rfl

/-! ### Branching on the token at the cursor -/

variable {α : Type} {kinds : List TokenKind} {taken other : Action α}

/-- A token of one of the kinds is taken, and the first branch goes on. -/
theorem Stands.take (h : Stands c (t :: ts) n) (hk : t.kind ∈ kinds) :
    (do if ← Machine.accepts c.tokens kinds then taken else other) (.at n depth) =
      taken (.at (n + 1) depth) := by
  rw [bind_of_eq (h.accepts hk), if_pos rfl]

/-- Without such a token the other branch goes on where the cursor is. -/
theorem Stands.pass (h : Stands c ts n) (hk : ∀ t ∈ ts.head?, t.kind ∉ kinds) :
    (do if ← Machine.accepts c.tokens kinds then taken else other) (.at n depth) =
      other (.at n depth) := by
  rw [bind_of_eq (h.accepts_not hk), if_neg Bool.false_ne_true]

end Steps

end LoxCalc.Machine
