import LoxCalc.Proofs.Lexeme.Printable

/-!
# Tokens with blanks between them

The lexemes of the tokens of a source, written with single blanks between them, scan to the same
tokens and to no fault, whatever else the source had between its tokens (`scan_respaced`).

A token that was taken from some source is a token by itself (`Lexeme.Standalone`): its clusters are
those of its own text, since they followed one another in the source, and a blank behind it ends it
as well as what stood there (`Lexeme.Taken.of_token`). Both ends of it are ASCII characters, so that
the blank is a cluster of its own and texts of such tokens are scanned one by one
(`Lexeme.all_spaced`).
-/

namespace LoxCalc

open Unicode (Cluster IsAscii)

namespace Lexeme

/-! ## Tokens by themselves -/

/-- A token is the same where nothing, a blank or the end of a line follows it. -/
theorem Taken.of_token {l : Lexeme} {rest more : List Cluster} (h : Taken l rest)
    {kind : TokenKind} {literal : Option Literal} (hl : l.label = .token kind literal)
    (hmore : ∀ c ∈ more.head?, c ∈ skipped) : Taken l more := by
  -- What is skipped goes on with no token, so that every run ends before it.
  have hends {p : Cluster → Bool} (hp : ∀ c ∈ skipped, p c = false) : EndsRun p more :=
    fun c hc => hp c (hmore c hc)
  have hdigit : EndsRun isDigit more := hends (by decide)
  have hpart : EndsRun isWordPart more := hends (by decide)
  have hpoint : beginsFraction more = false := by
    unfold beginsFraction
    split
    · exact absurd (hmore ['.'] rfl) (by decide)
    · rfl
  cases h with
  | punctuation hlookup => exact .punctuation hlookup
  | short hlookup _ => exact .short hlookup (hends (by decide))
  | long hlookup => exact .long hlookup
  | slash _ => exact .slash (hends (by decide))
  | string hinner => exact .string hinner
  | whole hne hdigits _ _ hx => exact .whole hne hdigits hdigit hpoint hx
  | fraction hne hdigits hfne hfraction _ hx =>
    exact .fraction hne hdigits hfne hfraction hdigit hx
  | word hletter hparts _ => exact .word hletter hparts hpart
  | _ => cases hl

/-- A lexeme that is a token by itself. -/
structure Standalone (l : Lexeme) : Prop where
  /-- It is a token. -/
  isToken : ∃ kind literal, l.label = .token kind literal
  /-- It is taken where nothing follows. -/
  taken : Taken l []
  /-- Its clusters are those of its own text. -/
  segment : Cluster.segment l.body.flatten = l.body

/-- Every token of a text is a token by itself. -/
theorem standalone_of_mem_all {text : List Char} {l : Lexeme} (h : l ∈ all (Cluster.segment text))
    {kind : TokenKind} {literal : Option Literal} (hl : l.label = .token kind literal) :
    l.Standalone := by
  obtain ⟨before, after, hall⟩ := List.append_of_mem h
  have hinfix : l.body <:+: Cluster.segment text := by
    refine ⟨(before.map body).flatten, (after.map body).flatten, ?_⟩
    rw [← flatten_body_all (Cluster.segment text), hall]
    simp
  exact ⟨⟨kind, literal, hl⟩, (taken_of_all_eq hall).of_token hl (by simp),
    Cluster.segment_of_infix hinfix⟩

/-- Punctuation that is a token whatever follows it is one by itself. -/
theorem standalone_of_punctuation {c : Cluster} {kind : TokenKind}
    (h : punctuation.lookup c = some kind) : Standalone ⟨.token kind none, [c]⟩ := by
  have hsegment : ∀ p ∈ punctuation, Cluster.segment p.1 = [p.1] := by decide
  refine ⟨⟨_, _, rfl⟩, .punctuation h, ?_⟩
  have hflat : [c].flatten = c := List.flatten_singleton
  rw [hflat]
  exact hsegment _ (mem_of_lookup_eq_some h)

namespace Standalone

variable {l : Lexeme}

/-- It is taken in front of any blank or line end. -/
theorem taken_before (h : l.Standalone) {more : List Cluster}
    (hmore : ∀ c ∈ more.head?, c ∈ skipped) : Taken l more := by
  obtain ⟨kind, literal, hl⟩ := h.isToken
  exact h.taken.of_token hl hmore

/-- It has a text. -/
theorem flatten_ne_nil (h : l.Standalone) : l.body.flatten ≠ [] := by
  intro hflat
  have hsegment := h.segment
  rw [hflat] at hsegment
  exact h.taken.body_ne_nil hsegment.symm

/-- What begins with a token begins with an ASCII character. -/
theorem head_ascii (h : l.Standalone) (rest : List Char) :
    ∀ c ∈ (l.body.flatten ++ rest).head?, IsAscii c := by
  obtain ⟨kind, literal, hl⟩ := h.isToken
  rw [List.head?_append_of_ne_nil _ h.flatten_ne_nil]
  exact (h.taken.ascii_ends hl).1

/-- It ends with an ASCII character that is no carriage return. -/
theorem last_ascii (h : l.Standalone) : ∀ c ∈ l.body.flatten.getLast?, IsAscii c ∧ c ≠ '\r' := by
  obtain ⟨kind, literal, hl⟩ := h.isToken
  exact (h.taken.ascii_ends hl).2

end Standalone

/-! ## Blanks between them -/

/-- The lexeme of a single blank. -/
def blank : Lexeme :=
  ⟨.trivia, [[' ']]⟩

/-- A token, a blank and what begins with another token are scanned one after another. -/
theorem all_append_blank {l : Lexeme} (h : l.Standalone) {rest : List Char}
    (hrest : ∀ c ∈ rest.head?, IsAscii c) :
    all (Cluster.segment (l.body.flatten ++ ' ' :: rest)) =
      l :: blank :: all (Cluster.segment rest) := by
  have hspace : Cluster.segment (' ' :: rest) = [' '] :: Cluster.segment rest :=
    Cluster.segment_cons_of_ascii (by decide) hrest
  have hblank : ∀ c ∈ (' ' :: rest).head?, IsAscii c := by
    intro c hc
    obtain rfl : ' ' = c := by simpa using hc
    decide
  have htaken : Taken l ([' '] :: Cluster.segment rest) := by
    refine h.taken_before fun c hc => ?_
    obtain rfl : [' '] = c := by simpa using hc
    decide
  -- An ASCII character begins a cluster of its own, so that the three parts are cut as they are
  -- alone.
  rw [Cluster.segment_append_of_ascii h.last_ascii hblank, h.segment, hspace, htaken.all_eq]
  exact congrArg _ (Taken.blank (.inl rfl)).all_eq

/-- The texts of lexemes with single blanks between them. -/
def spaced (ls : List Lexeme) : String :=
  " ".intercalate (ls.map text)

/-- A blank stands between a lexeme and the next. -/
theorem toList_spaced_cons (l : Lexeme) {ls : List Lexeme} (h : ls ≠ []) :
    (spaced (l :: ls)).toList = l.body.flatten ++ ' ' :: (spaced ls).toList := by
  obtain ⟨l', ls, rfl⟩ := List.exists_cons_of_ne_nil h
  simp [spaced, text]

/-- The first lexeme stands at the beginning. -/
theorem exists_toList_spaced (l : Lexeme) (ls : List Lexeme) :
    ∃ rest, (spaced (l :: ls)).toList = l.body.flatten ++ rest := by
  cases ls with
  | nil => exact ⟨[], by simp [spaced, text]⟩
  | cons l' ls => exact ⟨_, toList_spaced_cons l (List.cons_ne_nil l' ls)⟩

/-- Tokens with single blanks between them are scanned as they are. -/
theorem all_spaced {ls : List Lexeme} (h : ∀ l ∈ ls, l.Standalone) :
    all (Cluster.segment (spaced ls).toList) = ls.intersperse blank := by
  induction ls with
  | nil => simp [spaced, Cluster.segment, all]
  | cons l ls ih =>
    obtain ⟨hl, hls⟩ := List.forall_mem_cons.mp h
    -- Behind the last lexeme there is no blank.
    cases ls with
    | nil => simp [spaced, text, hl.segment, hl.taken.all_body]
    | cons l' ls =>
      obtain ⟨rest, hrest⟩ := exists_toList_spaced l' ls
      have hhead : ∀ c ∈ (spaced (l' :: ls)).toList.head?, IsAscii c := by
        rw [hrest]
        exact (hls l' List.mem_cons_self).head_ascii rest
      rw [toList_spaced_cons l (List.cons_ne_nil l' ls), all_append_blank hl hhead, ih hls,
        List.intersperse_cons_cons]

/-- The blanks in between are not found. -/
theorem filterMap_intersperse {β : Type} {f : Lexeme → Option β} (hf : f blank = none)
    (ls : List Lexeme) : (ls.intersperse blank).filterMap f = ls.filterMap f := by
  induction ls with
  | nil => rfl
  | cons l ls ih =>
    cases ls with
    | nil => rfl
    | cons l' ls =>
      rw [List.intersperse_cons_cons, List.filterMap_cons, List.filterMap_cons_none hf, ih]
      rfl

end Lexeme

/-- What a token is without its line. -/
def Token.spelled (t : Token) : TokenKind × Option Literal × String :=
  (t.kind, t.literal, t.lexeme)

namespace Scan

/-- A source without faults among its lexemes has their tokens. -/
theorem ofSource_of_all {source : String} {ls : List Lexeme}
    (hall : Lexeme.all (Cluster.segment source.toList) = ls)
    (hcauses : ls.filterMap Lexeme.cause? = []) :
    (ofSource source).tokens.map Token.spelled = ls.filterMap Lexeme.token? ∧
      (ofSource source).faults = [] := by
  have hfaults := (faults_ofLexemes 1 ls).trans hcauses
  rw [ofSource, ofClusters, hall]
  exact ⟨tokens_ofLexemes 1 ls, List.map_eq_nil_iff.mp hfaults⟩

/-- Tokens by themselves, with single blanks between them, are scanned as they are, and without
faults. -/
theorem ofSource_spaced {ls : List Lexeme} (h : ∀ l ∈ ls, l.Standalone) :
    (ofSource (Lexeme.spaced ls)).tokens.map Token.spelled = ls.filterMap Lexeme.token? ∧
      (ofSource (Lexeme.spaced ls)).faults = [] := by
  have hcauses : ls.filterMap Lexeme.cause? = [] := by
    rw [List.filterMap_eq_nil_iff]
    intro l hl
    obtain ⟨kind, literal, hlabel⟩ := (h l hl).isToken
    simp [Lexeme.cause?, hlabel]
  have hscan := ofSource_of_all (Lexeme.all_spaced h)
  rw [Lexeme.filterMap_intersperse rfl, Lexeme.filterMap_intersperse rfl] at hscan
  exact hscan hcauses

/-- The lexemes of the tokens of a scan, with single blanks between them. -/
def respaced (scan : Scan) : String :=
  " ".intercalate (scan.tokens.map Token.lexeme)

/-- The tokens of a source are tokens by themselves. -/
theorem exists_standalone (source : String) :
    ∃ ls : List Lexeme, (∀ l ∈ ls, l.Standalone) ∧
      (ofSource source).tokens.map Token.spelled = ls.filterMap Lexeme.token? ∧
      (ofSource source).respaced = Lexeme.spaced ls := by
  have htokens : (ofSource source).tokens.map Token.spelled = _ :=
    tokens_ofLexemes 1 (Lexeme.all (Cluster.segment source.toList))
  generalize hall : Lexeme.all (Cluster.segment source.toList) = lexemes at htokens
  refine ⟨lexemes.filter (·.token?.isSome), fun l hl => ?_, ?_, ?_⟩
  · obtain ⟨hmem, htoken⟩ := List.mem_filter.mp hl
    obtain ⟨⟨kind, literal, lexeme⟩, hsome⟩ := Option.isSome_iff_exists.mp htoken
    rw [← hall] at hmem
    exact Lexeme.standalone_of_mem_all hmem (Lexeme.token?_eq_some_iff.mp hsome).1
  · rw [htokens, List.filterMap_filter]
    congr 1
    funext l
    cases l.token? <;> rfl
  · -- The lexemes are read off what the tokens are without their lines.
    have hlexemes : (ofSource source).tokens.map Token.lexeme =
        ((ofSource source).tokens.map Token.spelled).map fun p => p.2.2 := by
      rw [List.map_map]
      rfl
    rw [respaced, Lexeme.spaced, hlexemes, htokens]
    congr 1
    rw [List.map_filterMap, ← List.filterMap_eq_map, List.filterMap_filter]
    congr 1
    funext l
    cases hlabel : l.label <;> simp [Lexeme.token?, hlabel]

end Scan

/-- The lexemes of the tokens of any source, with single blanks between them, scan to the same
tokens again but for their lines, and to no fault. -/
theorem scan_respaced (source : String) :
    (Scan.ofSource (Scan.ofSource source).respaced).allTokens.map Token.spelled =
        (Scan.ofSource source).allTokens.map Token.spelled ∧
      (Scan.ofSource (Scan.ofSource source).respaced).faults = [] := by
  obtain ⟨ls, hls, htokens, hrespaced⟩ := Scan.exists_standalone source
  obtain ⟨hspaced, hfaults⟩ := Scan.ofSource_spaced hls
  rw [hrespaced]
  refine ⟨?_, hfaults⟩
  rw [Scan.allTokens, Scan.allTokens, List.map_append, List.map_append, hspaced, htokens]
  rfl

end LoxCalc
