import LoxCalc.Lexeme

/-!
# Taking one lexeme

`Taken l rest` lists what a step of the scanner can take: a lexeme `l` with its label, and the
clusters `rest` behind it, which do not continue it. Each form says how its body is made and where
it ends. `taken_next` is the inversion of the step: whatever `Lexeme.next` takes has one of these
forms. `taken_of_all_eq` carries it to every step of a whole scan.
-/

namespace LoxCalc.Lexeme

open Unicode (Cluster)

/-- The clusters do not begin with one that has the property: a run of such clusters ends there. -/
def EndsRun (p : Cluster → Bool) (rest : List Cluster) : Prop :=
  ∀ c ∈ rest.head?, p c = false

/-- A point with a digit behind it. -/
def beginsFraction : List Cluster → Bool
  | ['.'] :: d :: _ => isDigit d
  | _ => false

/-- The forms that a lexeme can have, with the clusters behind it. -/
inductive Taken : Lexeme → List Cluster → Prop
  /-- Punctuation that is a token whatever follows it. -/
  | punctuation {c : Cluster} {kind : TokenKind} {rest : List Cluster} :
    punctuation.lookup c = some kind → Taken ⟨.token kind none, [c]⟩ rest
  /-- Punctuation that no equals sign follows. -/
  | short {c : Cluster} {short long : TokenKind} {rest : List Cluster} :
    equalizable.lookup c = some (short, long) → EndsRun (· == ['=']) rest →
    Taken ⟨.token short none, [c]⟩ rest
  /-- Punctuation with an equals sign. -/
  | long {c : Cluster} {short long : TokenKind} {rest : List Cluster} :
    equalizable.lookup c = some (short, long) → Taken ⟨.token long none, [c, ['=']]⟩ rest
  /-- A slash that no other follows. -/
  | slash {rest : List Cluster} :
    EndsRun (· == ['/']) rest → Taken ⟨.token .slash none, [['/']]⟩ rest
  /-- A comment, up to the end of its line. -/
  | comment {body rest : List Cluster} :
    (∀ c ∈ body, isNewline c = false) → EndsRun (!isNewline ·) rest →
    Taken ⟨.trivia, ['/'] :: ['/'] :: body⟩ rest
  /-- A blank or the end of a line. -/
  | blank {c : Cluster} {rest : List Cluster} :
    isBlank c = true ∨ isNewline c = true → Taken ⟨.trivia, [c]⟩ rest
  /-- A string, up to the next quote. -/
  | string {inner rest : List Cluster} : quote ∉ inner →
    Taken ⟨.token .string (some (.string (String.ofList inner.flatten))),
      quote :: inner ++ [quote]⟩ rest
  /-- The rest of the source behind a quote, if there is no other quote. -/
  | unterminated {inner : List Cluster} :
    quote ∉ inner → Taken ⟨.fault .unterminatedString, quote :: inner⟩ []
  /-- A number without a fraction. -/
  | whole {digits rest : List Cluster} {x : Float} :
    digits ≠ [] → (∀ c ∈ digits, isDigit c = true) → EndsRun isDigit rest →
    beginsFraction rest = false → Number.ofText? digits.flatten = some x →
    Taken ⟨.token .number (some (.number x)), digits⟩ rest
  /-- A number with a fraction. -/
  | fraction {digits fraction rest : List Cluster} {x : Float} :
    digits ≠ [] → (∀ c ∈ digits, isDigit c = true) → fraction ≠ [] →
    (∀ c ∈ fraction, isDigit c = true) → EndsRun isDigit rest →
    Number.ofText? (digits ++ ['.'] :: fraction).flatten = some x →
    Taken ⟨.token .number (some (.number x)), digits ++ ['.'] :: fraction⟩ rest
  /-- A word. -/
  | word {c : Cluster} {parts rest : List Cluster} :
    isLetter c = true → (∀ c ∈ parts, isWordPart c = true) → EndsRun isWordPart rest →
    Taken ⟨.token ((TokenKind.ofWord? (String.ofList (c :: parts).flatten)).getD .identifier) none,
      c :: parts⟩ rest
  /-- A cluster that begins nothing else. -/
  | unexpected {c : Cluster} {rest : List Cluster} :
    punctuation.lookup c = none → equalizable.lookup c = none → c ≠ ['/'] →
    isBlank c = false → isNewline c = false → c ≠ quote → isDigit c = false → isLetter c = false →
    Taken ⟨.fault .unexpectedCharacter, [c]⟩ rest

/-! ## Classes of clusters -/

/-- A digit can be part of a word. -/
theorem isWordPart_of_isDigit {c : Cluster} (h : isDigit c = true) : isWordPart c = true := by
  rw [isDigit, Bool.and_eq_true] at h
  rw [isWordPart, Bool.or_eq_true, Bool.and_eq_true]
  refine .inl ⟨h.1, List.all_eq_true.mpr fun ch hch => ?_⟩
  simp [Char.isAlphanum, List.all_eq_true.mp h.2 ch hch]

/-- What a word begins with can be part of one. -/
theorem isWordPart_of_isLetter {c : Cluster} (h : isLetter c = true) : isWordPart c = true := by
  rw [isLetter, Bool.or_eq_true, Bool.and_eq_true] at h
  rw [isWordPart, Bool.or_eq_true, Bool.and_eq_true]
  rcases h with ⟨hne, hletters⟩ | h
  · refine .inl ⟨hne, List.all_eq_true.mpr fun ch hch => ?_⟩
    simp [Char.isAlphanum, List.all_eq_true.mp hletters ch hch]
  · exact .inr h

/-- No part of a word ends a line. -/
theorem isNewline_of_isWordPart {c : Cluster} (h : isWordPart c = true) : isNewline c = false := by
  rw [Bool.eq_false_iff]
  intro hnewline
  simp only [isNewline, Bool.or_eq_true, beq_iff_eq] at hnewline
  rcases hnewline with rfl | rfl <;> exact absurd h (by decide)

/-- No digit ends a line. -/
theorem isNewline_of_isDigit {c : Cluster} (h : isDigit c = true) : isNewline c = false :=
  isNewline_of_isWordPart (isWordPart_of_isDigit h)

/-! ## What stands behind a lexeme -/

/-- What does not begin with a cluster has another at its head, or none. -/
theorem head?_ne_some {c : Cluster} {rest : List Cluster} (h : ∀ tail, rest = c :: tail → False) :
    rest.head? ≠ some c := by
  intro hhead
  obtain ⟨tail, rfl⟩ := List.head?_eq_some_iff.mp hhead
  exact h tail rfl

/-- There is no run of a cluster where another is at the head. -/
theorem endsRun_beq {c : Cluster} {rest : List Cluster} (h : rest.head? ≠ some c) :
    EndsRun (· == c) rest := by
  intro d hd
  rw [beq_eq_false_iff_ne]
  rintro rfl
  exact h hd

/-- No fraction begins without a point and a cluster behind it. -/
theorem beginsFraction_eq_false {rest : List Cluster}
    (h : ∀ d tail, rest = ['.'] :: d :: tail → False) : beginsFraction rest = false := by
  unfold beginsFraction
  split
  · next d tail => exact absurd rfl (h d tail)
  · rfl

/-! ## One step -/

/-- What a run leaves over begins with no cluster of the run. -/
theorem endsRun_dropWhile (p : Cluster → Bool) (cs : List Cluster) :
    EndsRun p (cs.dropWhile p) := by
  intro c hc
  have h := List.head?_dropWhile_not p cs
  rw [Option.mem_def.mp hc] at h
  simpa using h

/-- What is taken while something holds is made of what it holds for. -/
theorem forall_mem_takeWhile (p : Cluster → Bool) (cs : List Cluster) :
    ∀ c ∈ cs.takeWhile p, p c = true :=
  List.all_eq_true.mp List.all_takeWhile

/-- The step takes the longer form if an equals sign follows, and else the shorter. -/
theorem taken_nextEqualizable {c : Cluster} {short long : TokenKind}
    (h : equalizable.lookup c = some (short, long)) (rest : List Cluster) :
    Taken (nextEqualizable short long c rest).1 (nextEqualizable short long c rest).2 := by
  unfold nextEqualizable
  split
  · exact .long h
  · next hne => exact .short h (endsRun_beq (head?_ne_some hne))

/-- The step takes a comment if another slash follows, and else an operator. -/
theorem taken_nextSlash (rest : List Cluster) :
    Taken (nextSlash ['/'] rest).1 (nextSlash ['/'] rest).2 := by
  unfold nextSlash
  split
  · next rest =>
    refine .comment (fun c hc => ?_) (endsRun_dropWhile _ rest)
    simpa using forall_mem_takeWhile _ rest c hc
  · next hne => exact .slash (endsRun_beq (head?_ne_some hne))

/-- The step takes a string up to the next quote, and all there is if none follows. -/
theorem taken_nextString (rest : List Cluster) :
    Taken (nextString quote rest).1 (nextString quote rest).2 := by
  have hinner : quote ∉ rest.takeWhile (· != quote) := fun h => by
    simpa using forall_mem_takeWhile (· != quote) rest quote h
  unfold nextString
  split
  · exact .unterminated hinner
  · next close tail hdrop =>
    have hclose := endsRun_dropWhile (· != quote) rest
    rw [hdrop] at hclose
    obtain rfl : close = quote := by simpa using hclose close rfl
    exact .string hinner

/-- A lexeme that spells a number is one. -/
theorem numberLabel_eq {body : List Cluster} {x : Float}
    (h : Number.ofText? body.flatten = some x) :
    numberLabel body = .token .number (some (.number x)) := by
  rw [numberLabel, h]

/-- Digits spell a number, also with a point and more digits behind them. -/
theorem isLexeme_of_digits {whole fraction : List Char} (hne : whole ≠ [])
    (hwhole : ∀ d ∈ whole, d.isDigit = true) (hfraction : ∀ d ∈ fraction, d.isDigit = true) :
    Number.Decimal.isLexeme whole = true ∧
      Number.Decimal.isLexeme (whole ++ '.' :: fraction) = true := by
  -- No digit is a point, so that leaving points out changes nothing and there is one at most.
  have hfilter {ds : List Char} (hds : ∀ d ∈ ds, d.isDigit = true) :
      ds.filter (· != '.') = ds ∧ ds.count '.' = 0 := by
    have hpoint : '.' ∉ ds := fun hmem => absurd (hds _ hmem) (by decide)
    refine ⟨List.filter_eq_self.mpr fun d hd => ?_, List.count_eq_zero_of_not_mem hpoint⟩
    exact bne_iff_ne.mpr fun h => hpoint (h ▸ hd)
  obtain ⟨hw, hw0⟩ := hfilter hwhole
  obtain ⟨hf, hf0⟩ := hfilter hfraction
  constructor
  · simpa [Number.Decimal.isLexeme, hw, hw0, hne] using hwhole
  · simpa [Number.Decimal.isLexeme, hw, hw0, hf, hf0, hne] using ⟨hwhole, hfraction⟩

/-- Clusters of digits spell a number, also with a point and more of them behind them. -/
theorem exists_ofText?_eq {digits fraction : List Cluster} (hne : digits ≠ [])
    (hdigits : ∀ c ∈ digits, isDigit c = true) (hfraction : ∀ c ∈ fraction, isDigit c = true) :
    (∃ x, Number.ofText? digits.flatten = some x) ∧
      ∃ x, Number.ofText? (digits ++ ['.'] :: fraction).flatten = some x := by
  have hchars {cs : List Cluster} (hcs : ∀ c ∈ cs, isDigit c = true) :
      ∀ d ∈ cs.flatten, d.isDigit = true := by
    intro d hd
    obtain ⟨c, hc, hdc⟩ := List.mem_flatten.mp hd
    have hdigit := hcs c hc
    rw [isDigit, Bool.and_eq_true] at hdigit
    exact List.all_eq_true.mp hdigit.2 d hdc
  have hflat : digits.flatten ≠ [] := by
    obtain ⟨c, hc⟩ := List.exists_mem_of_ne_nil _ hne
    intro hnil
    have hempty := List.flatten_eq_nil_iff.mp hnil c hc
    exact absurd (hdigits c hc) (by simp [hempty, isDigit])
  obtain ⟨hwhole, hpoint⟩ := isLexeme_of_digits hflat (hchars hdigits) (hchars hfraction)
  constructor
  · exact ⟨_, if_pos hwhole⟩
  · rw [List.flatten_append, List.flatten_cons, List.singleton_append]
    exact ⟨_, if_pos hpoint⟩

/-- The step takes digits, and a fraction if they have one. -/
theorem taken_nextNumber {c : Cluster} (h : isDigit c = true) (rest : List Cluster) :
    Taken (nextNumber c rest).1 (nextNumber c rest).2 := by
  have hdigits : ∀ d ∈ c :: rest.takeWhile isDigit, isDigit d = true := by
    simpa [h] using forall_mem_takeWhile isDigit rest
  have hends := endsRun_dropWhile isDigit rest
  obtain ⟨⟨x, hx⟩, -⟩ := exists_ofText?_eq (List.cons_ne_nil _ _) hdigits (List.forall_mem_nil _)
  unfold nextNumber
  -- The digits may be followed by a point, and the point by a digit or not.
  split
  · next d tail hdrop =>
    split
    · next hd =>
      have hfraction : ∀ d' ∈ d :: tail.takeWhile isDigit, isDigit d' = true := by
        simpa [hd] using forall_mem_takeWhile isDigit tail
      obtain ⟨-, x, hx⟩ := exists_ofText?_eq (List.cons_ne_nil _ _) hdigits hfraction
      rw [numberOf, numberLabel_eq hx]
      exact .fraction (List.cons_ne_nil _ _) hdigits (List.cons_ne_nil d _) hfraction
        (endsRun_dropWhile isDigit tail) hx
    · next hd =>
      rw [hdrop] at hends
      rw [numberOf, numberLabel_eq hx]
      exact .whole (List.cons_ne_nil _ _) hdigits hends (by simpa [beginsFraction] using hd) hx
  · next hno =>
    rw [numberOf, numberLabel_eq hx]
    exact .whole (List.cons_ne_nil _ _) hdigits hends (beginsFraction_eq_false hno) hx

/-- Every lexeme that a step takes has one of the forms. -/
theorem taken_next (c : Cluster) (rest : List Cluster) :
    Taken (next c rest).1 (next c rest).2 := by
  -- The case splits are those of the step, in its order.
  unfold next
  split
  · next hlookup => exact .punctuation hlookup
  · next hlookup => exact taken_nextEqualizable hlookup rest
  · next hpunctuation hequalizable =>
    split
    · next hslash =>
      subst hslash
      exact taken_nextSlash rest
    · next hslash =>
      split
      · next hblank => exact .blank (by simpa using hblank)
      · next hblank =>
        rw [Bool.or_eq_true, not_or, Bool.not_eq_true, Bool.not_eq_true] at hblank
        split
        · next hquote =>
          subst hquote
          exact taken_nextString rest
        · next hquote =>
          split
          · next hdigit => exact taken_nextNumber hdigit rest
          · next hdigit =>
            split
            · next hletter =>
              exact .word hletter (forall_mem_takeWhile isWordPart rest)
                (endsRun_dropWhile isWordPart rest)
            · next hletter =>
              rw [Bool.not_eq_true] at hdigit hletter
              exact .unexpected hpunctuation hequalizable hslash hblank.1 hblank.2 hquote hdigit
                hletter

/-! ## All steps -/

/-- The bodies of the lexemes are the clusters, in order. -/
theorem flatten_body_all (cs : List Cluster) : ((all cs).map body).flatten = cs := by
  fun_induction all cs with
  | case1 => rfl
  | case2 c rest ih =>
    rw [List.map_cons, List.flatten_cons, ih]
    exact next_append c rest

/-- Every lexeme of a scan was taken from the front of what the scan had left. -/
theorem taken_of_all_eq {cs : List Cluster} {before after : List Lexeme} {l : Lexeme}
    (h : all cs = before ++ l :: after) : Taken l (after.map body).flatten := by
  fun_induction all cs generalizing before with
  | case1 => simp at h
  | case2 c rest ih =>
    cases before with
    | nil =>
      -- The first lexeme: the others cover what the first step leaves over.
      obtain ⟨rfl, rfl⟩ := List.cons.inj h
      rw [flatten_body_all]
      exact taken_next c rest
    | cons first before => exact ih (List.cons.inj h).2

end LoxCalc.Lexeme
