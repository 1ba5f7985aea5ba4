import LoxCalc.Proofs.Lexeme.Exact

/-!
# A scan takes the longest words of the lexical grammar

`Class label body` is the lexical grammar: which clusters are a token, of which kind and with which
literal, or a comment. It describes words alone and does not look at what follows them. At every
place where a scan takes a lexeme, it takes the longest word of the grammar that stands there
(`LongestMatch`). Where none stands there, a blank or the end of a line is skipped, a quote that no
other follows makes a fault of all the rest, and any other cluster is a fault by itself.

The first cluster of a word decides which part of the step takes it (`next_of_digit` and its like),
so that `Class.le_next` compares a word with what that part takes. `Taken.classified` is the other
direction: what a step takes is a word of the grammar or one of the exceptions.
-/

namespace LoxCalc.Lexeme

open Unicode (Cluster)

/-! ## The grammar -/

/-- An ASCII digit. -/
def IsDigitChar (ch : Char) : Prop :=
  '0' ≤ ch ∧ ch ≤ '9'

/-- An ASCII letter. -/
def IsLetterChar (ch : Char) : Prop :=
  ('A' ≤ ch ∧ ch ≤ 'Z') ∨ ('a' ≤ ch ∧ ch ≤ 'z')

/-- A cluster, not empty, of characters with a property. -/
def AllOf (p : Char → Prop) (c : Cluster) : Prop :=
  c ≠ [] ∧ ∀ ch ∈ c, p ch

/-- A cluster that begins a word. -/
def BeginsWord (c : Cluster) : Prop :=
  c = ['_'] ∨ AllOf IsLetterChar c

/-- A cluster that goes on with a word. -/
def ContinuesWord (c : Cluster) : Prop :=
  c = ['_'] ∨ AllOf (fun ch => IsLetterChar ch ∨ IsDigitChar ch) c

/-- Punctuation of one cluster. -/
def singles : List (Char × TokenKind) :=
  [('(', .leftParen), (')', .rightParen), ('\x7b', .leftBrace), ('\x7d', .rightBrace),
   (',', .comma), ('.', .dot), ('-', .minus), ('+', .plus), (';', .semicolon), ('/', .slash),
   ('*', .star), ('!', .bang), ('=', .equal), ('>', .greater), ('<', .less)]

/-- Punctuation that an equals sign follows. -/
def equalized : List (Char × TokenKind) :=
  [('!', .bangEqual), ('=', .equalEqual), ('>', .greaterEqual), ('<', .lessEqual)]

/-- What may follow the digits of a number: nothing, or a point and more digits. -/
def IsFraction (fraction : List Cluster) : Prop :=
  fraction = [] ∨ ∃ digits, digits ≠ [] ∧ (∀ c ∈ digits, AllOf IsDigitChar c) ∧
    fraction = ['.'] :: digits

/-- The kind of a word: that of a reserved word, and an identifier otherwise. -/
def IsWordKind (word : String) (kind : TokenKind) : Prop :=
  (word, kind) ∈ TokenKind.reserved ∨
    (kind = .identifier ∧ ∀ reserved, (word, reserved) ∉ TokenKind.reserved)

/-- The lexical grammar: the words of each class, with their labels. -/
inductive Class : Label → List Cluster → Prop
  /-- Punctuation of one cluster. -/
  | single {ch : Char} {kind : TokenKind} : (ch, kind) ∈ singles → Class (.token kind none) [[ch]]
  /-- Punctuation with an equals sign. -/
  | equalized {ch : Char} {kind : TokenKind} :
    (ch, kind) ∈ equalized → Class (.token kind none) [[ch], ['=']]
  /-- A comment within its line. -/
  | comment {body : List Cluster} :
    ['\n'] ∉ body → ['\r', '\n'] ∉ body → Class .trivia (['/'] :: ['/'] :: body)
  /-- A number: digits, and a fraction if there is one. -/
  | number {digits fraction : List Cluster} {x : Float} :
    digits ≠ [] → (∀ c ∈ digits, AllOf IsDigitChar c) → IsFraction fraction →
    Number.ofText? (digits ++ fraction).flatten = some x →
    Class (.token .number (some (.number x))) (digits ++ fraction)
  /-- A reserved word or an identifier. -/
  | word {first : Cluster} {parts : List Cluster} {kind : TokenKind} :
    BeginsWord first → (∀ c ∈ parts, ContinuesWord c) →
    IsWordKind (String.ofList (first :: parts).flatten) kind →
    Class (.token kind none) (first :: parts)
  /-- A string up to the quote that ends it. -/
  | string {inner : List Cluster} : ['"'] ∉ inner →
    Class (.token .string (some (.string (String.ofList inner.flatten))))
      (['"'] :: inner ++ [['"']])

/-- The lexeme `l` is the one to take from the front of the clusters `remaining`. -/
structure LongestMatch (remaining : List Cluster) (l : Lexeme) : Prop where
  /-- The lexeme stands at the front. -/
  front : l.body <+: remaining
  /-- No word of the grammar at the front is longer. -/
  longest : ∀ label body, Class label body → body <+: remaining → body.length ≤ l.body.length
  /-- If a word of the grammar stands at the front then the lexeme is one, with its only label. -/
  classified : ∀ label body, Class label body → body <+: remaining →
    ∀ label, Class label l.body ↔ label = l.label
  /-- A blank and the end of a line are skipped. -/
  skips : ∀ c rest, remaining = c :: rest → c ∈ skipped → l = ⟨.trivia, [c]⟩
  /-- Any other cluster that begins no word is a fault by itself. -/
  unexpected : ∀ c rest, remaining = c :: rest → c ∉ skipped →
    (∀ label body, Class label body → body.head? ≠ some c) → l = ⟨.fault .unexpectedCharacter, [c]⟩
  /-- A quote that no other follows makes a fault of all the rest. -/
  unterminated : ∀ rest, remaining = ['"'] :: rest → ['"'] ∉ rest →
    l = ⟨.fault .unterminatedString, remaining⟩

/-! ## The grammar's clusters and the scanner's -/

/-- The step tests clusters for digits as the classes do. -/
theorem isDigit_iff (c : Cluster) : isDigit c = true ↔ AllOf IsDigitChar c := by
  simp [isDigit, AllOf, IsDigitChar, Char.isDigit, Char.le_def]

/-- The step tests what words begin with as the classes do. -/
theorem isLetter_iff (c : Cluster) : isLetter c = true ↔ BeginsWord c := by
  simp [isLetter, BeginsWord, AllOf, IsLetterChar, isAlpha_iff, or_comm]

/-- The step tests what words go on with as the classes do. -/
theorem isWordPart_iff (c : Cluster) : isWordPart c = true ↔ ContinuesWord c := by
  simp [isWordPart, ContinuesWord, AllOf, IsLetterChar, IsDigitChar, Char.isAlphanum, isAlpha_iff,
    Char.isDigit, Char.le_def, or_comm]

/-- The kind of a word is looked up among the reserved words. -/
theorem isWordKind_iff (word : String) (kind : TokenKind) :
    IsWordKind word kind ↔ (TokenKind.ofWord? word).getD .identifier = kind := by
  -- No word is reserved twice.
  have hkeys : ∀ p ∈ TokenKind.reserved, TokenKind.ofWord? p.1 = some p.2 := by decide
  cases hlookup : TokenKind.ofWord? word with
  | none =>
    have hnone (reserved : TokenKind) : (word, reserved) ∉ TokenKind.reserved := fun hmem => by
      rw [hkeys _ hmem] at hlookup
      cases hlookup
    simp [IsWordKind, hnone, eq_comm]
  | some found =>
    have hmem := mem_of_lookup_eq_some hlookup
    constructor
    · rintro (h | ⟨-, h⟩)
      · rw [← hlookup, hkeys _ h]
        rfl
      · exact absurd hmem (h found)
    · rintro rfl
      exact .inl hmem

/-! ## No word of the grammar is longer -/

/-- A run of clusters at the front goes no further than the longest run. -/
theorem length_le_takeWhile {p : Cluster → Bool} {run cs : List Cluster}
    (hrun : ∀ c ∈ run, p c = true) (h : run <+: cs) : run.length ≤ (cs.takeWhile p).length := by
  obtain ⟨rest, rfl⟩ := h
  rw [List.takeWhile_append_of_pos hrun, List.length_append]
  omega

/-- A number is labelled by what it spells, and holds at least its first digits. -/
theorem nextNumber_eq (c : Cluster) (rest : List Cluster) :
    (nextNumber c rest).1.label = numberLabel (nextNumber c rest).1.body ∧
      (rest.takeWhile isDigit).length + 1 ≤ (nextNumber c rest).1.body.length := by
  unfold nextNumber
  split
  · split
    · simp [numberOf]
    · simp [numberOf]
  · simp [numberOf]

/-- A number with a fraction holds all the digits behind the point. -/
theorem length_nextNumber_of_fraction {c d : Cluster} {rest tail : List Cluster}
    (hdrop : rest.dropWhile isDigit = ['.'] :: d :: tail) (hd : isDigit d = true) :
    (nextNumber c rest).1.body.length =
      (rest.takeWhile isDigit).length + (tail.takeWhile isDigit).length + 3 := by
  unfold nextNumber
  rw [hdrop]
  simp only [hd, if_true, numberOf, List.length_append, List.length_cons]
  omega

/-- A number of the grammar at the front is no longer than the one that the step takes. -/
theorem length_le_nextNumber {c : Cluster} {rest digits fraction : List Cluster}
    (hdigits : ∀ d ∈ c :: digits, AllOf IsDigitChar d) (hfraction : IsFraction fraction)
    (h : digits ++ fraction <+: rest) :
    digits.length + fraction.length + 1 ≤ (nextNumber c rest).1.body.length := by
  have hrun : ∀ d ∈ digits, isDigit d = true := fun d hd =>
    (isDigit_iff d).mpr (hdigits d (List.mem_cons_of_mem c hd))
  rcases hfraction with rfl | ⟨more, hne, hmore, rfl⟩
  · have hle := length_le_takeWhile hrun ((List.prefix_append digits []).trans h)
    have htaken := (nextNumber_eq c rest).2
    simp only [List.length_nil]
    omega
  · -- The point ends the first digits, so that the fraction stands where the step looks for one.
    obtain ⟨d, more, rfl⟩ := List.exists_cons_of_ne_nil hne
    obtain ⟨tail, rfl⟩ := h
    have hd : isDigit d = true := (isDigit_iff d).mpr (hmore d List.mem_cons_self)
    have hmore : ∀ d' ∈ more, isDigit d' = true := fun d' hd' =>
      (isDigit_iff d').mpr (hmore d' (List.mem_cons_of_mem d hd'))
    rw [List.append_assoc, List.cons_append, List.cons_append]
    have hpoint : EndsRun isDigit (['.'] :: d :: (more ++ tail)) := endsRun_cons.mpr (by decide)
    obtain ⟨htake, hdrop⟩ := span_run hrun hpoint
    have hle := length_le_takeWhile hmore (List.prefix_append more tail)
    rw [length_nextNumber_of_fraction hdrop hd, htake]
    simp only [List.length_cons]
    omega

/-- A word of the grammar at the front is no longer than what the step takes, and if it is that, it
has the same label. -/
theorem Class.le_next {label : Label} {body : List Cluster} {c : Cluster} {rest : List Cluster}
    (h : Class label body) (hbody : body <+: c :: rest) :
    body.length ≤ (next c rest).1.body.length ∧
      ((next c rest).1.body = body → (next c rest).1.label = label) := by
  -- One case for each class: the step begins with the first cluster of the lexeme, and then goes on
  -- as far as it can.
  cases h with
  | @single ch kind hmem =>
    obtain rfl := (List.cons_prefix_cons.mp hbody).1
    have htable : ∀ p ∈ singles, punctuation.lookup [p.1] = some p.2 ∨
        (equalizable.lookup [p.1]).map Prod.fst = some p.2 ∨ p = ('/', .slash) := by decide
    refine ⟨List.length_pos_iff.mpr (body_next_ne_nil _ _), ?_⟩
    rcases htable _ hmem with hp | he | heq
    · rw [next_of_punctuation hp]
      exact fun _ => rfl
    · obtain ⟨⟨short, long⟩, he, rfl⟩ := Option.map_eq_some_iff.mp he
      rw [next_of_equalizable he]
      unfold nextEqualizable
      split <;> simp [tokenOf]
    · obtain ⟨rfl, rfl⟩ := Prod.mk.inj heq
      rw [next_slash]
      unfold nextSlash
      split <;> simp [tokenOf]
  | @equalized ch kind hmem =>
    obtain ⟨rfl, hrest⟩ := List.cons_prefix_cons.mp hbody
    obtain ⟨rest, rfl⟩ := hrest
    have htable : ∀ p ∈ Lexeme.equalized,
        (equalizable.lookup [p.1]).map Prod.snd = some p.2 := by decide
    obtain ⟨⟨short, long⟩, he, rfl⟩ := Option.map_eq_some_iff.mp (htable _ hmem)
    rw [next_of_equalizable he]
    exact ⟨Nat.le_refl _, fun _ => rfl⟩
  -- No line end stands within the comment, and the step goes on to the next one.
  | @comment body hlf hcrlf =>
    obtain ⟨rfl, hrest⟩ := List.cons_prefix_cons.mp hbody
    obtain ⟨rest', rfl⟩ := hrest
    have hrun : ∀ c ∈ body, (!isNewline c) = true := by
      intro c hc
      simp only [isNewline, Bool.not_eq_true', Bool.or_eq_false_iff, beq_eq_false_iff_ne]
      exact ⟨fun h => hlf (h ▸ hc), fun h => hcrlf (h ▸ hc)⟩
    have hle := length_le_takeWhile hrun (List.prefix_append body rest')
    rw [next_slash, List.cons_append, nextSlash]
    simp only [List.length_cons]
    exact ⟨by omega, fun _ => trivial⟩
  | @number digits fraction x hne hdigits hfraction hx =>
    obtain ⟨d, digits, rfl⟩ := List.exists_cons_of_ne_nil hne
    obtain ⟨rfl, hrest⟩ := List.cons_prefix_cons.mp hbody
    rw [next_of_digit ((isDigit_iff d).mpr (hdigits d List.mem_cons_self))]
    constructor
    · have hle := length_le_nextNumber hdigits hfraction hrest
      simp only [List.cons_append, List.length_cons, List.length_append]
      omega
    · intro heq
      rw [(nextNumber_eq d rest).1, heq, numberLabel_eq hx]
  -- The step takes all word characters, and the lexeme is some of them.
  | @word first parts kind hfirst hparts hkind =>
    obtain ⟨rfl, hrest⟩ := List.cons_prefix_cons.mp hbody
    rw [next_of_letter ((isLetter_iff first).mpr hfirst)]
    have hrun : ∀ c ∈ parts, isWordPart c = true := fun c hc => (isWordPart_iff c).mpr (hparts c hc)
    have hle := length_le_takeWhile hrun hrest
    simp only [nextWord, tokenOf, List.length_cons]
    refine ⟨by omega, fun heq => ?_⟩
    rw [heq, (isWordKind_iff _ kind).mp hkind]
  | @string inner hinner =>
    rw [List.cons_append] at hbody
    obtain ⟨rfl, hrest⟩ := List.cons_prefix_cons.mp hbody
    obtain ⟨rest, rfl⟩ := hrest
    rw [List.append_assoc, List.singleton_append]
    have hnext := (next_quote (inner ++ quote :: rest)).trans (nextString_append hinner rest)
    rw [← quote, hnext]
    exact ⟨Nat.le_refl _, fun _ => rfl⟩

/-! ## What a step takes is a word of the grammar, or an exception -/

/-- What a step takes is a word of the grammar, a cluster to skip, or a fault. -/
theorem Taken.classified {l : Lexeme} {rest : List Cluster} (h : Taken l rest) :
    Class l.label l.body ∨ (∃ c ∈ skipped, l = ⟨.trivia, [c]⟩) ∨
      (∃ inner, quote ∉ inner ∧ rest = [] ∧ l = ⟨.fault .unterminatedString, quote :: inner⟩) ∨
      ∃ c, c ∉ named ∧ ¬AllOf IsDigitChar c ∧ ¬BeginsWord c ∧
        l = ⟨.fault .unexpectedCharacter, [c]⟩ := by
  cases h with
  | @punctuation c kind _ hlookup =>
    have htable : ∀ p ∈ Lexeme.punctuation, ∃ s ∈ singles, p = ([s.1], s.2) := by decide
    obtain ⟨⟨ch, kind'⟩, hs, heq⟩ := htable _ (mem_of_lookup_eq_some hlookup)
    cases heq
    exact .inl (.single hs)
  -- Some operators of one character may have an equals sign behind them and others may not; the
  -- classes do not tell them apart.
  | @short c short long _ hlookup _ =>
    have htable : ∀ p ∈ equalizable, ∃ s ∈ singles, (p.1, p.2.1) = ([s.1], s.2) := by decide
    obtain ⟨⟨ch, kind'⟩, hs, heq⟩ := htable _ (mem_of_lookup_eq_some hlookup)
    cases heq
    exact .inl (.single hs)
  | @long c short long _ hlookup =>
    have htable : ∀ p ∈ equalizable, ∃ s ∈ equalized, (p.1, p.2.2) = ([s.1], s.2) := by decide
    obtain ⟨⟨ch, kind'⟩, hs, heq⟩ := htable _ (mem_of_lookup_eq_some hlookup)
    cases heq
    exact .inl (.equalized hs)
  | slash _ => exact .inl (.single (by decide))
  | @comment body _ hbody _ =>
    refine .inl (.comment ?_ ?_)
    · exact fun hmem => absurd (hbody _ hmem) (by decide)
    · exact fun hmem => absurd (hbody _ hmem) (by decide)
  | @blank c _ hc => exact .inr (.inl ⟨c, (mem_skipped_iff c).mpr hc, rfl⟩)
  | string hinner => exact .inl (.string hinner)
  | unterminated hinner => exact .inr (.inr (.inl ⟨_, hinner, rfl, rfl⟩))
  | @whole digits _ x hne hdigits _ _ hx =>
    have hclass := Class.number hne (fun c hc => (isDigit_iff c).mp (hdigits c hc))
      (.inl rfl) ((congrArg (Number.ofText? ·.flatten) (List.append_nil digits)).trans hx)
    rw [List.append_nil] at hclass
    exact .inl hclass
  | fraction hne hdigits hfne hfraction _ hx =>
    exact .inl (.number hne (fun c hc => (isDigit_iff c).mp (hdigits c hc))
      (.inr ⟨_, hfne, fun c hc => (isDigit_iff c).mp (hfraction c hc), rfl⟩) hx)
  | @word c parts _ hletter hparts _ =>
    exact .inl (.word ((isLetter_iff c).mp hletter)
      (fun c hc => (isWordPart_iff c).mp (hparts c hc)) ((isWordKind_iff _ _).mpr rfl))
  -- All other first clusters are ruled out, one by one.
  | @unexpected c _ hp he hslash hblank hnewline hquote hdigit hletter =>
    refine .inr (.inr (.inr ⟨c, ?_, ?_, ?_, rfl⟩))
    · simp only [named, List.mem_append, List.mem_cons, not_or]
      refine ⟨⟨lookup_eq_none_iff.mp hp, lookup_eq_none_iff.mp he⟩, hslash, hquote, ?_⟩
      simp [mem_skipped_iff, hblank, hnewline]
    · simp [← isDigit_iff, hdigit]
    · simp [← isLetter_iff, hletter]

/-- A word of the grammar begins with a cluster that the step knows by name and does not skip, with
digits, or like a word. One that begins with a quote goes up to another quote. -/
theorem Class.head_cases {label : Label} {body : List Cluster} (h : Class label body) :
    ∃ c tail, body = c :: tail ∧ (c = quote → quote ∈ tail) ∧
      ((c ∈ named ∧ c ∉ skipped) ∨ AllOf IsDigitChar c ∨ BeginsWord c) := by
  cases h with
  | @single ch kind hmem =>
    have htable : ∀ p ∈ singles, [p.1] ≠ quote ∧ [p.1] ∈ named ∧ [p.1] ∉ skipped := by decide
    obtain ⟨hquote, hnamed⟩ := htable _ hmem
    exact ⟨_, _, rfl, fun h => absurd h hquote, .inl hnamed⟩
  | @equalized ch kind hmem =>
    have htable : ∀ p ∈ Lexeme.equalized, [p.1] ≠ quote ∧ [p.1] ∈ named ∧ [p.1] ∉ skipped := by
      decide
    obtain ⟨hquote, hnamed⟩ := htable _ hmem
    exact ⟨_, _, rfl, fun h => absurd h hquote, .inl hnamed⟩
  | comment _ _ => exact ⟨_, _, rfl, fun h => absurd h (by decide), .inl (by decide)⟩
  | number hne hdigits _ _ =>
    obtain ⟨d, digits, rfl⟩ := List.exists_cons_of_ne_nil hne
    have hd := hdigits d List.mem_cons_self
    refine ⟨d, _, rfl, ?_, .inr (.inl hd)⟩
    rintro rfl
    exact absurd ((isDigit_iff quote).mpr hd) (by decide)
  | @word first _ _ hfirst _ _ =>
    refine ⟨first, _, rfl, ?_, .inr (.inr hfirst)⟩
    rintro rfl
    exact absurd ((isLetter_iff quote).mpr hfirst) (by decide)
  | string _ =>
    exact ⟨_, _, rfl, fun _ => List.mem_append_right _ (List.mem_singleton.mpr rfl),
      .inl (by decide)⟩

/-- No word of the grammar begins with a cluster to skip. -/
theorem Class.head_not_mem_skipped {label : Label} {c : Cluster} {tail : List Cluster}
    (h : Class label (c :: tail)) : c ∉ skipped := by
  obtain ⟨c', tail', heq, -, hbegins⟩ := h.head_cases
  obtain ⟨rfl, rfl⟩ := List.cons.inj heq
  have hskipped : ∀ d ∈ skipped, isDigit d = false ∧ isLetter d = false := by decide
  intro hmem
  obtain ⟨hdigit, hletter⟩ := hskipped c hmem
  rcases hbegins with ⟨-, h⟩ | h | h
  · exact h hmem
  · simp [(isDigit_iff c).mpr h] at hdigit
  · simp [(isLetter_iff c).mpr h] at hletter

/-! ## Longest match at every step -/

/-- The exceptions stand only where no word of the grammar does. -/
theorem Class.of_prefix {label : Label} {body : List Cluster} {c : Cluster} {rest : List Cluster}
    (h : Class label body) (hbody : body <+: c :: rest) :
    Class (next c rest).1.label (next c rest).1.body := by
  obtain ⟨c', tail, rfl, hquote, hbegins⟩ := h.head_cases
  obtain ⟨rfl, htail⟩ := List.cons_prefix_cons.mp hbody
  have hfront := next_append c' rest
  -- Nothing skipped or unexpected begins a lexeme, and a string that is not closed has no quote
  -- behind the first.
  rcases (taken_next c' rest).classified with hclass | ⟨d, hd, hl⟩ | ⟨inner, hinner, hrest, hl⟩ |
    ⟨d, hnamed, hdigit, hword, hl⟩
  · exact hclass
  · rw [hl] at hfront
    obtain ⟨rfl, -⟩ := List.cons.inj hfront
    exact absurd hd h.head_not_mem_skipped
  · rw [hl, hrest, List.append_nil] at hfront
    obtain ⟨rfl, rfl⟩ := List.cons.inj hfront
    exact absurd (htail.subset (hquote rfl)) hinner
  · rw [hl] at hfront
    obtain ⟨rfl, -⟩ := List.cons.inj hfront
    rcases hbegins with ⟨hmem, -⟩ | h | h
    · exact absurd hmem hnamed
    · exact absurd h hdigit
    · exact absurd h hword

/-- A step takes the longest match. -/
theorem longestMatch_next (c : Cluster) (rest : List Cluster) :
    LongestMatch (c :: rest) (next c rest).1 := by
  have hfront : (next c rest).1.body <+: c :: rest := ⟨_, next_append c rest⟩
  constructor
  case front => exact hfront
  case longest => exact fun label body h hbody => (h.le_next hbody).1
  case classified =>
    intro label body h hbody label'
    constructor
    · exact fun h' => ((h'.le_next hfront).2 rfl).symm
    · rintro rfl
      exact h.of_prefix hbody
  case skips =>
    intro c' rest' heq hskipped
    obtain ⟨rfl, rfl⟩ := List.cons.inj heq
    rw [next_of_mem_skipped hskipped]
  case unexpected =>
    intro c' rest' heq hskipped hnone
    obtain ⟨rfl, rfl⟩ := List.cons.inj heq
    -- The step has taken something, and the other classes would have the cluster for a lexeme.
    rcases (taken_next c rest).classified with hclass | ⟨d, hd, hl⟩ | ⟨inner, -, -, hl⟩ |
      ⟨d, -, -, -, hl⟩
    · obtain ⟨d, tail, hbody, -⟩ := hclass.head_cases
      rw [hbody] at hfront
      obtain ⟨rfl, -⟩ := List.cons_prefix_cons.mp hfront
      exact absurd (by rw [hbody]; rfl) (hnone _ _ hclass)
    · rw [hl] at hfront
      obtain ⟨rfl, -⟩ := List.cons_prefix_cons.mp hfront
      exact absurd hd hskipped
    · -- A quote begins the empty string, at least.
      rw [hl] at hfront
      obtain ⟨rfl, -⟩ := List.cons_prefix_cons.mp hfront
      exact absurd rfl (hnone _ _ (.string (List.not_mem_nil (a := quote))))
    · rw [hl] at hfront ⊢
      obtain ⟨rfl, -⟩ := List.cons_prefix_cons.mp hfront
      rfl
  case unterminated =>
    intro rest' heq hquote
    obtain ⟨rfl, rfl⟩ := List.cons.inj heq
    rw [← quote, next_quote, nextString_of_not_mem hquote]

/-- Every lexeme of a scan was taken by a step from what the scan had left. -/
theorem next_of_all_eq {cs : List Cluster} {before after : List Lexeme} {l : Lexeme}
    (h : all cs = before ++ l :: after) :
    ∃ c rest, cs.drop (before.map body).flatten.length = c :: rest ∧ l = (next c rest).1 := by
  -- The clusters in front of the lexeme are those of the lexemes before it.
  fun_induction all cs generalizing before with
  | case1 => simp at h
  | case2 c rest ih =>
    cases before with
    | nil => exact ⟨c, rest, rfl, (List.cons.inj h).1.symm⟩
    | cons first before =>
      obtain ⟨rfl, htail⟩ := List.cons.inj h
      obtain ⟨c', rest', hdrop, hl⟩ := ih htail
      refine ⟨c', rest', ?_, hl⟩
      rw [← hdrop, List.map_cons, List.flatten_cons, List.length_append, ← List.drop_drop]
      congr 1
      rw [← next_append c rest, List.drop_left]

/-- Every scan takes the longest match at every place where it takes a lexeme. It returns the tokens
among the lexemes and reports the faults among them, none of which is a number. -/
theorem scan_longestMatch (cs : List Cluster) :
    (∀ before l after, all cs = before ++ l :: after →
      LongestMatch (cs.drop (before.map body).flatten.length) l) ∧
    (Scan.ofClusters cs).tokens.map (fun t => (t.kind, t.literal, t.lexeme)) =
      (all cs).filterMap token? ∧
    (Scan.ofClusters cs).faults.map (·.cause) = (all cs).filterMap cause? ∧
    ∀ f ∈ (Scan.ofClusters cs).faults, f.cause ≠ .invalidNumber := by
  have hfaults := Scan.faults_ofLexemes 1 (all cs)
  refine ⟨?_, Scan.tokens_ofLexemes 1 (all cs), hfaults, ?_⟩
  · intro before l after hall
    obtain ⟨c, rest, hdrop, rfl⟩ := next_of_all_eq hall
    rw [hdrop]
    exact longestMatch_next c rest
  · -- A number that does not denote one is no lexeme of any step.
    intro f hf hcause
    have hmem : LexicalCause.invalidNumber ∈ (all cs).filterMap cause? := by
      rw [← hfaults, ← hcause]
      exact List.mem_map_of_mem hf
    obtain ⟨l, hl, hfault⟩ := List.mem_filterMap.mp hmem
    obtain ⟨rest, htaken⟩ := taken_of_mem_all hl
    rcases htaken.fault_cases (cause?_eq_some_iff.mp hfault) with ⟨h, -⟩ | ⟨h, -⟩ <;> cases h

/-- A blank begins no word of the grammar, and yet it is no fault: a scan skips it. -/
theorem blank_is_no_fault :
    (∀ label body, Class label body → body.head? ≠ some [' ']) ∧
      all (Cluster.segment " ".toList) = [⟨.trivia, [[' ']]⟩] ∧
      (Scan.ofSource " ").faults = [] := by
  have hall : all (Cluster.segment " ".toList) = [⟨.trivia, [[' ']]⟩] := by
    have hsegment : Cluster.segment " ".toList = [[' ']] := by decide
    rw [hsegment, all, next_of_mem_skipped (by decide), all]
  refine ⟨fun label body h hhead => ?_, hall, ?_⟩
  · obtain ⟨tail, rfl⟩ := List.head?_eq_some_iff.mp hhead
    exact absurd (by decide) h.head_not_mem_skipped
  · rw [Scan.ofSource, Scan.ofClusters, hall]
    rfl

end LoxCalc.Lexeme
