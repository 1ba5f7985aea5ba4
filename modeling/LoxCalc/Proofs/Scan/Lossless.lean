import LoxCalc.Proofs.Scan.Machine

/-!
# Scanning loses nothing

A scan cuts the clusters of a source into segments, each a token, trivia or a fault, and reports
nothing else: its tokens are the token segments and its faults the fault segments, both in order
(`Lossless`). Of the segmentation into clusters it takes only that no cluster is empty and that
together they are the text, so that `scan_lossless` holds for every such `Segmentation`.

What a segment can be is known from the step that took it (`taken_of_all_eq`). Where the segments
are taken in the source is known from the machine: it comes to an end, so that no text is cut out of
range, and all places where it is are within the source (`Scan.Machine.Ends`).
-/

namespace LoxCalc

open Unicode (Cluster)

/-- A way to cut texts into clusters, none of them empty, that concatenate to the text. -/
structure Segmentation where
  /-- The clusters of a text. -/
  clusters : List Char → List Cluster
  /-- No cluster is empty. -/
  ne_nil : ∀ text, ∀ c ∈ clusters text, c ≠ []
  /-- The clusters concatenate to the text. -/
  flatten_clusters : ∀ text, (clusters text).flatten = text

namespace Lexeme

/-- The kind, the literal and the lexeme of the token that a segment is, if it is one. -/
def token? (l : Lexeme) : Option (TokenKind × Option Literal × String) :=
  match l.label with
  | .token kind literal => some (kind, literal, l.text)
  | _ => none

/-- The cause of the fault that a segment is, if it is one. -/
def cause? (l : Lexeme) : Option LexicalCause :=
  match l.label with
  | .fault cause => some cause
  | _ => none

/-- A lexeme is a token by its label. -/
theorem token?_eq_some_iff {l : Lexeme} {kind : TokenKind} {literal : Option Literal}
    {lexeme : String} : l.token? = some (kind, literal, lexeme) ↔
      l.label = .token kind literal ∧ l.text = lexeme := by
  cases hlabel : l.label <;> simp [token?, hlabel, and_assoc]

/-- A lexeme is a fault by its label. -/
theorem cause?_eq_some_iff {l : Lexeme} {cause : LexicalCause} :
    l.cause? = some cause ↔ l.label = .fault cause := by
  cases hlabel : l.label <;> simp [cause?, hlabel]

/-- A blank, the end of a line, or a comment without the end of its line. -/
def IsTrivia (body : List Cluster) : Prop :=
  body ∈ [[[' ']], [['\r']], [['\t']], [['\n']], [['\r', '\n']]] ∨
    ∃ comment, body = ['/'] :: ['/'] :: comment ∧ ['\n'] ∉ comment ∧ ['\r', '\n'] ∉ comment

/-! ## What a segment can be -/

section Taken

variable {l : Lexeme} {rest : List Cluster}

/-- No lexeme is empty. -/
theorem Taken.body_ne_nil (h : Taken l rest) : l.body ≠ [] := by
  cases h with
  | whole hne _ _ _ _ => exact hne
  | _ => simp

/-- What is skipped is a blank, a line end or a comment. -/
theorem Taken.isTrivia (h : Taken l rest) (hl : l.label = .trivia) : IsTrivia l.body := by
  cases h with
  | @comment body _ hbody _ =>
    refine .inr ⟨body, rfl, ?_, ?_⟩
    · exact fun hmem => absurd (hbody _ hmem) (by decide)
    · exact fun hmem => absurd (hbody _ hmem) (by decide)
  | @blank c _ hc =>
    left
    simp only [isBlank, isNewline, Bool.or_eq_true, beq_iff_eq] at hc
    rcases hc with ((rfl | rfl) | rfl) | rfl | rfl <;> decide
  | _ => cases hl

/-- A fault is one cluster, or a quote and all that follows it. -/
theorem Taken.fault_cases (h : Taken l rest) {cause : LexicalCause} (hl : l.label = .fault cause) :
    (cause = .unexpectedCharacter ∧ ∃ c, l.body = [c]) ∨
      (cause = .unterminatedString ∧ rest = [] ∧
        ∃ inner, l.body = quote :: inner ∧ quote ∉ inner) := by
  -- Of the forms only two are faults.
  cases h with
  | unterminated hinner =>
    cases hl
    exact .inr ⟨rfl, rfl, _, rfl, hinner⟩
  | unexpected =>
    cases hl
    exact .inl ⟨rfl, _, rfl⟩
  | _ => cases hl

/-- A key of a table stands beside its value. -/
theorem mem_of_lookup_eq_some {α β : Type} [BEq α] [LawfulBEq α] {table : List (α × β)} {key : α}
    {value : β} (h : table.lookup key = some value) : (key, value) ∈ table := by
  obtain ⟨before, after, rfl, -⟩ := List.lookup_eq_some_iff.mp h
  simp

/-- The lexemes that the step knows by name, and their kinds. -/
def symbols : List (List Cluster × TokenKind) :=
  ([['/']], .slash) :: punctuation.map (fun p => ([p.1], p.2)) ++
    equalizable.flatMap fun p => [([p.1], p.2.1), ([p.1, ['=']], p.2.2)]

/-- What tokens are made of, whatever stands behind them. -/
inductive TokenForm : TokenKind → Option Literal → List Cluster → Prop
  | symbol {kind : TokenKind} {body : List Cluster} :
    (body, kind) ∈ symbols → TokenForm kind none body
  | word {kind : TokenKind} {body : List Cluster} :
    kind ∈ TokenKind.identifier :: TokenKind.reserved.map Prod.snd →
    (∀ c ∈ body, isWordPart c = true) → TokenForm kind none body
  | number {body : List Cluster} {x : Float} :
    (∀ c ∈ body, isDigit c = true ∨ c = ['.']) → Number.ofText? body.flatten = some x →
    TokenForm .number (some (.number x)) body
  | string (inner : List Cluster) :
    TokenForm .string (some (.string (String.ofList inner.flatten))) (quote :: inner ++ [quote])

/-- A token has one of the forms of tokens. -/
theorem Taken.tokenForm (h : Taken l rest) {kind : TokenKind} {literal : Option Literal}
    (hl : l.label = .token kind literal) : TokenForm kind literal l.body := by
  cases h with
  | punctuation hlookup =>
    cases hl
    have hmem := mem_of_lookup_eq_some hlookup
    refine .symbol (List.mem_append_left _ (List.mem_cons_of_mem _ ?_))
    exact List.mem_map.mpr ⟨_, hmem, rfl⟩
  | short hlookup _ =>
    cases hl
    have hmem := mem_of_lookup_eq_some hlookup
    exact .symbol (List.mem_append_right _ (List.mem_flatMap.mpr ⟨_, hmem, List.mem_cons_self⟩))
  | long hlookup =>
    cases hl
    have hmem := mem_of_lookup_eq_some hlookup
    refine .symbol (List.mem_append_right _ (List.mem_flatMap.mpr ⟨_, hmem, ?_⟩))
    exact List.mem_cons_of_mem _ List.mem_cons_self
  | slash _ =>
    cases hl
    exact .symbol (by decide)
  | string _ =>
    cases hl
    exact .string _
  | whole _ hdigits _ _ hread =>
    cases hl
    exact .number (fun c hc => .inl (hdigits c hc)) hread
  | fraction _ hdigits _ hfraction _ hread =>
    cases hl
    refine .number ?_ hread
    rw [List.forall_mem_append, List.forall_mem_cons]
    exact ⟨fun c hc => .inl (hdigits c hc), .inr rfl, fun c hc => .inl (hfraction c hc)⟩
  -- A word is reserved, or else an identifier.
  | word hletter hparts _ =>
    cases hl
    refine .word ?_ ?_
    · unfold TokenKind.ofWord?
      cases hlookup : TokenKind.reserved.lookup _ with
      | none => exact List.mem_cons_self
      | some kind =>
        exact List.mem_cons_of_mem _ (List.mem_map.mpr ⟨_, mem_of_lookup_eq_some hlookup, rfl⟩)
    · rw [List.forall_mem_cons]
      exact ⟨isWordPart_of_isLetter hletter, hparts⟩
  | _ => cases hl

/-- No token is an end, and a string is what stands between two quotes. -/
theorem Taken.token_cases (h : Taken l rest) {kind : TokenKind} {literal : Option Literal}
    (hl : l.label = .token kind literal) :
    kind ≠ .eof ∧ (kind = .string → ∃ inner, l.body = quote :: inner ++ [quote] ∧
      literal = some (.string (String.ofList inner.flatten))) := by
  -- No table of kinds names an end or a string.
  have hsymbols : ∀ p ∈ symbols, p.2 ≠ .eof ∧ p.2 ≠ .string := by decide
  have hwords : ∀ kind ∈ TokenKind.identifier :: TokenKind.reserved.map Prod.snd,
      kind ≠ .eof ∧ kind ≠ .string := by decide
  have hform := h.tokenForm hl
  generalize l.body = body at hform
  cases hform with
  | symbol hmem =>
    obtain ⟨heof, hstring⟩ := hsymbols _ hmem
    exact ⟨heof, fun hkind => absurd hkind hstring⟩
  | word hmem _ =>
    obtain ⟨heof, hstring⟩ := hwords _ hmem
    exact ⟨heof, fun hkind => absurd hkind hstring⟩
  | number _ _ => exact ⟨by decide, fun hkind => by cases hkind⟩
  | string inner => exact ⟨by decide, fun _ => ⟨inner, rfl, rfl⟩⟩

end Taken

end Lexeme

/-! ## What a scan reports -/

namespace Scan

/-- The tokens of a scan are its token segments. -/
theorem tokens_ofLexemes (line : Nat) (segments : List Lexeme) :
    (ofLexemes line segments).tokens.map (fun t => (t.kind, t.literal, t.lexeme)) =
      segments.filterMap Lexeme.token? := by
  induction segments generalizing line with
  | nil => rfl
  | cons l rest ih =>
    have hrest := ih (line + l.newlines)
    cases hlabel : l.label <;> simp [ofLexemes, Lexeme.token?, hlabel, hrest]

/-- The faults of a scan are its fault segments. -/
theorem faults_ofLexemes (line : Nat) (segments : List Lexeme) :
    (ofLexemes line segments).faults.map (·.cause) = segments.filterMap Lexeme.cause? := by
  induction segments generalizing line with
  | nil => rfl
  | cons l rest ih =>
    have hrest := ih (line + l.newlines)
    cases hlabel : l.label <;> simp [ofLexemes, Lexeme.cause?, hlabel, hrest]

/-- Every lexeme that is a fault is reported. -/
theorem exists_fault_of_label {cs : List Cluster} {l : Lexeme} (hl : l ∈ Lexeme.all cs)
    {cause : LexicalCause} (h : l.label = .fault cause) :
    ∃ f ∈ (ofClusters cs).faults, f.cause = cause := by
  apply List.mem_map.mp
  rw [ofClusters, faults_ofLexemes]
  exact List.mem_filterMap.mpr ⟨l, hl, Lexeme.cause?_eq_some_iff.mpr h⟩

end Scan

/-- The machine over these clusters ends in the state `s`, which tells the segments it has taken. -/
structure Scan.Machine.Ends (clusters : List Cluster) (segments : List Lexeme) (scan : Scan)
    (s : State) : Prop where
  /-- It comes to an end. So every text was cut out within range, and every loop has ended. -/
  ends : Machine.scan clusters = some s
  /-- It has found the tokens, with the end as the last one, and the faults. -/
  tokens : s.tokens = scan.allTokens
  faults : s.faults = scan.faults
  /-- The start of the current segment was never behind the cursor, nor the cursor behind the
  clusters. -/
  within : ∀ start current, (start, current) ∈ s.trail →
    start ≤ current ∧ current ≤ clusters.length
  /-- Behind the first cluster it went from the start of each segment to its end, one cluster at a
  time. -/
  mem_trail_iff : ∀ start current, (start, current) ∈ s.trail ↔ (start = 0 ∧ current = 0) ∨
    ∃ before l after taken, segments = before ++ l :: after ∧ taken <+: l.body ∧
      start = (before.map Lexeme.body).flatten.length ∧ current = start + taken.length
  /-- What had been taken of a segment was what stands between its start and the cursor. -/
  taken : ∀ before l after taken, segments = before ++ l :: after → taken <+: l.body →
    clusters.extract (before.map Lexeme.body).flatten.length
      ((before.map Lexeme.body).flatten.length + taken.length) = taken
  /-- At the end of a string the cursor was at least two clusters behind its start, and the literal
  is what stands between the first and the last of them. -/
  string : ∀ before l after literal, segments = before ++ l :: after →
    l.label = .token .string literal → ∃ start current, (start, current) ∈ s.trail ∧
      start = (before.map Lexeme.body).flatten.length ∧ current = start + l.body.length ∧
      start + 1 ≤ current - 1 ∧ current ≤ clusters.length ∧
      literal = some (.string (String.ofList (clusters.extract (start + 1) (current - 1)).flatten))

/-- A scan of a source, by way of its clusters and the segments they are cut into, loses nothing. -/
structure Lossless (source : String) (clusters : List Cluster) (segments : List Lexeme)
    (scan : Scan) : Prop where
  /-- The segments cover the clusters in order, without gap or overlap. -/
  split : (segments.map Lexeme.body).flatten = clusters
  /-- Every segment covers some text. -/
  text_ne_empty : ∀ l ∈ segments, l.text ≠ ""
  /-- The texts of the segments concatenate to the source. -/
  flatten_text : (segments.map fun l => l.text.toList).flatten = source.toList
  /-- The tokens before the end are the token segments, each with its text as its lexeme. -/
  tokens : scan.tokens.map (fun t => (t.kind, t.literal, t.lexeme)) =
    segments.filterMap Lexeme.token?
  /-- The faults are the fault segments. -/
  faults : scan.faults.map (·.cause) = segments.filterMap Lexeme.cause?
  /-- Trivia are blanks, line ends and comments. -/
  trivia : ∀ l ∈ segments, l.label = .trivia → Lexeme.IsTrivia l.body
  /-- A fault is one cluster, or the rest of the source from an opening quote. -/
  fault : ∀ before l after cause, segments = before ++ l :: after → l.label = .fault cause →
    (cause = .unexpectedCharacter ∧ ∃ c, l.body = [c]) ∨
      (cause = .unterminatedString ∧ after = [] ∧
        ∃ inner, l.body = Lexeme.quote :: inner ∧ Lexeme.quote ∉ inner)
  /-- One end is returned, behind all other tokens, without text. -/
  eof : ∃ eof, scan.allTokens = scan.tokens ++ [eof] ∧ eof.kind = .eof ∧ eof.lexeme = "" ∧
    ∀ t ∈ scan.tokens, t.kind ≠ .eof
  /-- The machine takes the segments from the clusters, and is within them all the time. -/
  machine : ∃ s, Scan.Machine.Ends clusters segments scan s

namespace Lexeme

variable {cs : List Cluster}

/-- Every lexeme of a scan has been taken. -/
theorem taken_of_mem_all {l : Lexeme} (h : l ∈ all cs) : ∃ rest, Taken l rest := by
  obtain ⟨before, after, hall⟩ := List.append_of_mem h
  exact ⟨_, taken_of_all_eq hall⟩

/-- A segment of clusters that are not empty covers some text. -/
theorem text_ne_empty_of_mem_all (hcs : ∀ c ∈ cs, c ≠ []) {l : Lexeme} (h : l ∈ all cs) :
    l.text ≠ "" := by
  obtain ⟨rest, htaken⟩ := taken_of_mem_all h
  -- The body has a cluster, which is one of the source and so is not empty.
  obtain ⟨c, hc⟩ := List.exists_mem_of_ne_nil _ htaken.body_ne_nil
  have hmem : c ∈ cs := by
    rw [← flatten_body_all cs]
    exact List.mem_flatten.mpr ⟨l.body, List.mem_map_of_mem h, hc⟩
  intro htext
  have hflat : l.body.flatten = [] := by
    have := congrArg String.toList htext
    rwa [text, String.toList_ofList] at this
  exact hcs c hmem (List.flatten_eq_nil_iff.mp hflat c hc)

/-- Segments that cover nothing are none. -/
theorem eq_nil_of_flatten_eq_nil {before after : List Lexeme} {l : Lexeme}
    (h : all cs = before ++ l :: after) (hafter : (after.map body).flatten = []) : after = [] := by
  cases after with
  | nil => rfl
  | cons l' after =>
    -- One more segment would have been taken, and no segment covers nothing.
    rw [← List.singleton_append, ← List.append_assoc] at h
    have hbody := List.flatten_eq_nil_iff.mp hafter l'.body (by simp)
    exact absurd hbody (taken_of_all_eq h).body_ne_nil

/-- What has been taken of a segment stands behind the segments before it. -/
theorem extract_of_all_eq {before after : List Lexeme} {l : Lexeme} {taken : List Cluster}
    (h : all cs = before ++ l :: after) (htaken : taken <+: l.body) :
    (before.map body).flatten.length + taken.length ≤ cs.length ∧
      cs.extract (before.map body).flatten.length
        ((before.map body).flatten.length + taken.length) = taken := by
  obtain ⟨more, hmore⟩ := htaken
  have hcs : cs = (before.map body).flatten ++ (taken ++ (more ++ (after.map body).flatten)) := by
    rw [← flatten_body_all cs, h]
    simp [← hmore]
  -- What stands in front of the lexeme is as long as its start says.
  generalize (before.map body).flatten = start at hcs ⊢
  subst hcs
  constructor
  · simp only [List.length_append]
    omega
  · rw [List.extract_eq_take_drop, Nat.add_sub_cancel_left, List.drop_left, List.take_left]

/-- What stands between the first and the last of some clusters. -/
theorem extract_inner {start current : Nat} {first last : Cluster} {inner : List Cluster}
    (h : cs.extract start current = first :: inner ++ [last])
    (hcurrent : current = start + (inner.length + 2)) :
    cs.extract (start + 1) (current - 1) = inner := by
  rw [List.extract_eq_take_drop, hcurrent, Nat.add_sub_cancel_left] at h
  calc cs.extract (start + 1) (current - 1)
      = (cs.drop (start + 1)).take inner.length := by
        rw [List.extract_eq_take_drop]
        congr 1
        omega
    _ = (((cs.drop start).take (inner.length + 2)).drop 1).take inner.length := by
        rw [List.drop_take, List.drop_drop, List.take_take]
        congr 1
        omega
    _ = inner := by
        rw [h]
        simp

end Lexeme

/-- The machine ends, and was within the clusters all the time. -/
theorem Scan.Machine.exists_ends (cs : List Cluster) :
    ∃ s, Ends cs (Lexeme.all cs) (Scan.ofClusters cs) s := by
  obtain ⟨s, hscan, htokens, hfaults, -, htrail⟩ := scan_eq cs
  have hmem (start current : Nat) : (start, current) ∈ s.trail ↔ (start = 0 ∧ current = 0) ∨
      ∃ before l after taken, Lexeme.all cs = before ++ l :: after ∧ taken <+: l.body ∧
        start = (before.map Lexeme.body).flatten.length ∧ current = start + taken.length := by
    rw [htrail, List.mem_cons, mem_stops_iff]
    simp only [Nat.zero_add, Prod.mk.injEq]
  refine ⟨s, ?_⟩
  constructor
  case ends => exact hscan
  case tokens => exact htokens
  case faults => exact hfaults
  case within =>
    intro start current h
    rcases (hmem start current).mp h with
      ⟨rfl, rfl⟩ | ⟨before, l, after, taken, hall, htaken, rfl, rfl⟩
    · exact ⟨Nat.le_refl 0, Nat.zero_le _⟩
    · exact ⟨Nat.le_add_right _ _, (Lexeme.extract_of_all_eq hall htaken).1⟩
  case mem_trail_iff => exact hmem
  case taken =>
    intro before l after taken hall htaken
    exact (Lexeme.extract_of_all_eq hall htaken).2
  case string =>
    -- Both quotes are there, so that the cut between them is within the body.
    intro before l after literal hall hlabel
    obtain ⟨inner, hbody, hliteral⟩ := ((Lexeme.taken_of_all_eq hall).token_cases hlabel).2 rfl
    obtain ⟨hle, hextract⟩ := Lexeme.extract_of_all_eq hall (List.prefix_refl l.body)
    have hlen : l.body.length = inner.length + 2 := by simp [hbody]
    refine ⟨_, _, (hmem _ _).mpr (.inr ⟨before, l, after, l.body, hall, List.prefix_refl _, rfl,
      rfl⟩), rfl, rfl, by omega, hle, ?_⟩
    rw [hliteral, Lexeme.extract_inner (hextract.trans hbody) (by rw [hlen])]

/-- Clusters that are not empty and concatenate to a source are scanned without loss. -/
theorem Lossless.ofClusters {source : String} {cs : List Cluster} (hcs : ∀ c ∈ cs, c ≠ [])
    (hsource : cs.flatten = source.toList) :
    Lossless source cs (Lexeme.all cs) (Scan.ofClusters cs) := by
  have htokens := Scan.tokens_ofLexemes 1 (Lexeme.all cs)
  constructor
  case split => exact Lexeme.flatten_body_all cs
  case text_ne_empty => exact fun l hl => Lexeme.text_ne_empty_of_mem_all hcs hl
  case flatten_text =>
    calc ((Lexeme.all cs).map fun l => l.text.toList).flatten
        = (((Lexeme.all cs).map Lexeme.body).map List.flatten).flatten := by
          simp [Lexeme.text, Function.comp_def]
      _ = cs.flatten := by rw [← List.flatten_flatten, Lexeme.flatten_body_all]
      _ = source.toList := hsource
  case tokens => exact htokens
  case faults => exact Scan.faults_ofLexemes 1 (Lexeme.all cs)
  case trivia =>
    intro l hl hlabel
    obtain ⟨rest, htaken⟩ := Lexeme.taken_of_mem_all hl
    exact htaken.isTrivia hlabel
  case fault =>
    intro before l after cause hall hlabel
    rcases (Lexeme.taken_of_all_eq hall).fault_cases hlabel with hone | ⟨hcause, hrest, hbody⟩
    · exact .inl hone
    · exact .inr ⟨hcause, Lexeme.eq_nil_of_flatten_eq_nil hall hrest, hbody⟩
  case eof =>
    refine ⟨_, rfl, rfl, rfl, fun t ht => ?_⟩
    -- A token of the scan is one of its segments, none of which is an end.
    have hmem : (t.kind, t.literal, t.lexeme) ∈ (Lexeme.all cs).filterMap Lexeme.token? := by
      rw [← htokens]
      exact List.mem_map_of_mem ht
    obtain ⟨l, hl, htoken⟩ := List.mem_filterMap.mp hmem
    obtain ⟨rest, htaken⟩ := Lexeme.taken_of_mem_all hl
    unfold Lexeme.token? at htoken
    split at htoken
    · next kind literal hlabel =>
      obtain ⟨hkind, -⟩ := Prod.mk.inj (Option.some.inj htoken)
      rw [← hkind]
      exact (htaken.token_cases hlabel).1
    · cases htoken
  case machine => exact Scan.Machine.exists_ends cs

/-- Every scan of every source, over any segmentation into clusters, loses nothing. -/
theorem scan_lossless (segmentation : Segmentation) (source : String) :
    Lossless source (segmentation.clusters source.toList)
      (Lexeme.all (segmentation.clusters source.toList))
      (Scan.ofClusters (segmentation.clusters source.toList)) :=
  .ofClusters (segmentation.ne_nil source.toList) (segmentation.flatten_clusters source.toList)

/-- The scan of a source over its extended grapheme clusters loses nothing. -/
theorem Lossless.ofSource (source : String) :
    Lossless source (Cluster.segment source.toList) (Lexeme.all (Cluster.segment source.toList))
      (Scan.ofSource source) :=
  .ofClusters (Cluster.ne_nil_of_mem_segment _) (Cluster.flatten_segment _)

end LoxCalc
