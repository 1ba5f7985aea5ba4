import LoxCalc.Proofs.Scan.Lossless

/-!
# The forms of lexemes are exact

`Taken l rest` lists the forms of what a step can take. Here the step is computed from a form: where
clusters have one of the forms, the step takes just that (`Taken.next_eq`), and a scan goes on
behind it (`Taken.all_eq`). So a form decides the step, and what follows a lexeme matters only as
far as its form looks at it.

The first cluster decides which part of the step is at work, and each part is computed from the runs
of clusters that it takes.
-/

namespace LoxCalc.Lexeme

open Unicode (Cluster)

/-! ## The first cluster decides -/

/-- The clusters that are skipped by themselves. -/
def skipped : List Cluster :=
  [[' '], ['\r'], ['\t'], ['\n'], ['\r', '\n']]

/-- The clusters that the step knows by name. -/
def named : List Cluster :=
  punctuation.map Prod.fst ++ equalizable.map Prod.fst ++ ['/'] :: quote :: skipped

/-- The clusters that are skipped are the blanks and the line ends. -/
theorem mem_skipped_iff (c : Cluster) : c ∈ skipped ↔ isBlank c = true ∨ isNewline c = true := by
  simp [skipped, isBlank, isNewline, or_assoc]

/-- A table knows nothing of what it does not list. -/
theorem lookup_eq_none_iff {β : Type} {table : List (Cluster × β)} {c : Cluster} :
    table.lookup c = none ↔ c ∉ table.map Prod.fst := by
  simp only [List.lookup_eq_none_iff, bne_iff_ne, List.mem_map, not_exists, not_and]
  exact ⟨fun h p hp heq => h p hp heq.symm, fun h p hp heq => h p hp heq.symm⟩

/-- Punctuation of one character is a token by itself. -/
theorem next_of_punctuation {c : Cluster} {kind : TokenKind}
    (h : punctuation.lookup c = some kind) (rest : List Cluster) :
    next c rest = tokenOf kind [c] rest := by
  simp only [next, h]

/-- Punctuation that may have an equals sign behind it is looked at with what follows. -/
theorem next_of_equalizable {c : Cluster} {short long : TokenKind}
    (h : equalizable.lookup c = some (short, long)) (rest : List Cluster) :
    next c rest = nextEqualizable short long c rest := by
  have htable : ∀ p ∈ equalizable, punctuation.lookup p.1 = none := by decide
  simp only [next, htable _ (mem_of_lookup_eq_some h), h]

/-- A slash is looked at with what follows. -/
theorem next_slash (rest : List Cluster) : next ['/'] rest = nextSlash ['/'] rest := rfl

/-- A quote begins a string. -/
theorem next_quote (rest : List Cluster) : next quote rest = nextString quote rest := rfl

/-- A cluster that is skipped is trivia by itself. -/
theorem next_of_mem_skipped {c : Cluster} (h : c ∈ skipped) (rest : List Cluster) :
    next c rest = (⟨.trivia, [c]⟩, rest) := by
  simp only [skipped, List.mem_cons, List.not_mem_nil, or_false] at h
  rcases h with rfl | rfl | rfl | rfl | rfl <;> rfl

/-- A cluster that the step does not know by name is digits, letters or a fault. -/
theorem next_of_not_mem_named {c : Cluster} (h : c ∉ named) (rest : List Cluster) :
    next c rest = if isDigit c then nextNumber c rest else if isLetter c then nextWord c rest
      else (⟨.fault .unexpectedCharacter, [c]⟩, rest) := by
  simp only [named, List.mem_append, List.mem_cons, not_or] at h
  obtain ⟨⟨hp, he⟩, hslash, hquote, hskipped⟩ := h
  have hblank : ¬(isBlank c || isNewline c) = true := by
    rwa [Bool.or_eq_true, ← mem_skipped_iff]
  simp only [next, lookup_eq_none_iff.mpr hp, lookup_eq_none_iff.mpr he, if_neg hslash,
    if_neg hblank, if_neg hquote]

/-- The step takes a cluster of digits for the start of a number. -/
theorem next_of_digit {c : Cluster} (h : isDigit c = true) (rest : List Cluster) :
    next c rest = nextNumber c rest := by
  have hnamed : ∀ d ∈ named, isDigit d = false := by decide
  have hc : c ∉ named := fun hmem => by simp [hnamed c hmem] at h
  rw [next_of_not_mem_named hc, if_pos h]

/-- The letters of ASCII. -/
theorem isAlpha_iff (ch : Char) :
    ch.isAlpha = true ↔ ('A' ≤ ch ∧ ch ≤ 'Z') ∨ ('a' ≤ ch ∧ ch ≤ 'z') := by
  have hupper : ch.isUpper = decide ('A' ≤ ch ∧ ch ≤ 'Z') := rfl
  have hlower : ch.isLower = (decide ('a' ≤ ch) && decide (ch ≤ 'z')) := rfl
  have halpha : ch.isAlpha = (ch.isUpper || ch.isLower) := rfl
  simp only [halpha, hupper, hlower, Bool.or_eq_true, Bool.and_eq_true, decide_eq_true_eq]

/-- No cluster is both letters and digits. -/
theorem isDigit_eq_false_of_isLetter {c : Cluster} (h : isLetter c = true) : isDigit c = false := by
  rw [isLetter, Bool.or_eq_true, Bool.and_eq_true, beq_iff_eq] at h
  rcases h with ⟨hne, hletters⟩ | rfl
  · cases c with
    | nil => simp at hne
    | cons ch tail =>
      have hletter := (isAlpha_iff ch).mp (List.all_eq_true.mp hletters ch List.mem_cons_self)
      -- ASCII digits come before ASCII letters; a word may begin with an underscore, which is
      -- neither.
      have hdigit : ch.isDigit = false := by
        rw [Bool.eq_false_iff, ne_eq, Char.isDigit_iff_toNat]
        simp only [Char.le_def, UInt32.le_iff_toNat_le] at hletter
        have : ch.toNat = ch.val.toNat := rfl
        have : 'A'.val.toNat = 65 := rfl
        have : 'a'.val.toNat = 97 := rfl
        have : '9'.toNat = 57 := rfl
        omega
      simp [isDigit, hdigit]
  · decide

/-- The step takes a cluster of letters for the start of a word. -/
theorem next_of_letter {c : Cluster} (h : isLetter c = true) (rest : List Cluster) :
    next c rest = nextWord c rest := by
  have hnamed : ∀ d ∈ named, isLetter d = false := by decide
  have hc : c ∉ named := fun hmem => by simp [hnamed c hmem] at h
  rw [next_of_not_mem_named hc, if_neg (by simp [isDigit_eq_false_of_isLetter h]), if_pos h]

/-! ## Each part takes its runs -/

/-- A run ends where a cluster stands that does not belong to it. -/
theorem span_run {p : Cluster → Bool} {run rest : List Cluster} (hrun : ∀ c ∈ run, p c = true)
    (hrest : EndsRun p rest) :
    (run ++ rest).takeWhile p = run ∧ (run ++ rest).dropWhile p = rest := by
  rw [List.takeWhile_append_of_pos hrun, List.dropWhile_append_of_pos hrun]
  cases rest with
  | nil => simp
  | cons c rest =>
    have hc : ¬p c = true := by simp [hrest c rfl]
    rw [List.takeWhile_cons_of_neg hc, List.dropWhile_cons_of_neg hc]
    simp

/-- A run ends where the clusters do. -/
theorem endsRun_nil (p : Cluster → Bool) : EndsRun p [] := by
  simp [EndsRun]

/-- A run ends at a cluster that does not belong to it. -/
theorem endsRun_cons {p : Cluster → Bool} {c : Cluster} {rest : List Cluster} :
    EndsRun p (c :: rest) ↔ p c = false := by
  simp [EndsRun]

/-- Clusters that are not quotes are a run up to the next quote. -/
theorem ne_quote_of_not_mem {inner : List Cluster} (h : quote ∉ inner) :
    ∀ c ∈ inner, (c != quote) = true :=
  fun _ hc => bne_iff_ne.mpr fun heq => h (heq ▸ hc)

/-- A string takes what stands up to the next quote, if there is one. -/
theorem nextString_append {inner : List Cluster} (hinner : quote ∉ inner) (rest : List Cluster) :
    nextString quote (inner ++ quote :: rest) =
      (⟨.token .string (some (.string (String.ofList inner.flatten))), quote :: inner ++ [quote]⟩,
        rest) := by
  have hends : EndsRun (· != quote) (quote :: rest) := endsRun_cons.mpr (by simp)
  obtain ⟨htake, hdrop⟩ := span_run (ne_quote_of_not_mem hinner) hends
  simp only [nextString, htake, hdrop]

/-- A quote that no other follows takes all the rest. -/
theorem nextString_of_not_mem {rest : List Cluster} (h : quote ∉ rest) :
    nextString quote rest = (⟨.fault .unterminatedString, quote :: rest⟩, []) := by
  obtain ⟨htake, hdrop⟩ := span_run (ne_quote_of_not_mem h) (endsRun_nil _)
  rw [List.append_nil] at htake hdrop
  simp only [nextString, htake, hdrop]

/-- Without an equals sign behind it the short form is taken. -/
theorem nextEqualizable_of_endsRun {short long : TokenKind} {c : Cluster} {rest : List Cluster}
    (h : EndsRun (· == ['=']) rest) :
    nextEqualizable short long c rest = tokenOf short [c] rest := by
  unfold nextEqualizable
  split
  · simp [endsRun_cons] at h
  · rfl

/-- A slash without another one behind it is an operator. -/
theorem nextSlash_of_endsRun {c : Cluster} {rest : List Cluster} (h : EndsRun (· == ['/']) rest) :
    nextSlash c rest = tokenOf .slash [c] rest := by
  unfold nextSlash
  split
  · simp [endsRun_cons] at h
  · rfl

/-- A comment takes the clusters up to the end of its line. -/
theorem nextSlash_of_comment {c : Cluster} {body rest : List Cluster}
    (hbody : ∀ c ∈ body, isNewline c = false) (hrest : EndsRun (!isNewline ·) rest) :
    nextSlash c (['/'] :: body ++ rest) = (⟨.trivia, c :: ['/'] :: body⟩, rest) := by
  have hrun : ∀ c ∈ body, (!isNewline c) = true := fun c hc => by rw [hbody c hc]; rfl
  obtain ⟨htake, hdrop⟩ := span_run hrun hrest
  simp only [nextSlash, List.cons_append, htake, hdrop]

/-- A number without a fraction takes its digits. -/
theorem nextNumber_of_whole {c : Cluster} {digits rest : List Cluster}
    (hdigits : ∀ d ∈ digits, isDigit d = true) (hrest : EndsRun isDigit rest)
    (hfraction : beginsFraction rest = false) :
    nextNumber c (digits ++ rest) = numberOf (c :: digits) rest := by
  obtain ⟨htake, hdrop⟩ := span_run hdigits hrest
  simp only [nextNumber, htake, hdrop]
  -- A point behind the digits would be taken only with a digit behind it.
  split
  · simp only [beginsFraction] at hfraction
    simp [hfraction]
  · rfl

/-- A number with a fraction takes its digits, the point and the digits behind it. -/
theorem nextNumber_of_fraction {c d : Cluster} {digits fraction rest : List Cluster}
    (hdigits : ∀ d ∈ digits, isDigit d = true) (hd : isDigit d = true)
    (hfraction : ∀ d ∈ fraction, isDigit d = true) (hrest : EndsRun isDigit rest) :
    nextNumber c (digits ++ ['.'] :: d :: (fraction ++ rest)) =
      numberOf (c :: digits ++ ['.'] :: d :: fraction) rest := by
  have hpoint : EndsRun isDigit (['.'] :: d :: (fraction ++ rest)) := endsRun_cons.mpr (by decide)
  obtain ⟨htake, hdrop⟩ := span_run hdigits hpoint
  obtain ⟨htake', hdrop'⟩ := span_run hfraction hrest
  simp only [nextNumber, htake, hdrop, hd, if_true, htake', hdrop']

/-- A word takes the clusters that go on with it. -/
theorem nextWord_of_parts {c : Cluster} {parts rest : List Cluster}
    (hparts : ∀ c ∈ parts, isWordPart c = true) (hrest : EndsRun isWordPart rest) :
    nextWord c (parts ++ rest) =
      tokenOf ((TokenKind.ofWord? (String.ofList (c :: parts).flatten)).getD .identifier)
        (c :: parts) rest := by
  obtain ⟨htake, hdrop⟩ := span_run hparts hrest
  simp only [nextWord, htake, hdrop]

/-- Where clusters begin with a lexeme in one of its forms, the step takes just that lexeme. -/
theorem Taken.next_eq {l : Lexeme} {behind : List Cluster} (h : Taken l behind) {c : Cluster}
    {rest : List Cluster} (heq : l.body ++ behind = c :: rest) : next c rest = (l, behind) := by
  -- One case for each form: the first cluster decides which way the step goes, and the form says
  -- where that ends.
  cases h with
  | punctuation hlookup =>
    obtain ⟨rfl, rfl⟩ := List.cons.inj heq
    exact next_of_punctuation hlookup _
  | short hlookup hends =>
    obtain ⟨rfl, rfl⟩ := List.cons.inj heq
    rw [next_of_equalizable hlookup]
    exact nextEqualizable_of_endsRun hends
  | long hlookup =>
    obtain ⟨rfl, rfl⟩ := List.cons.inj heq
    rw [next_of_equalizable hlookup]
    rfl
  | slash hends =>
    obtain ⟨rfl, rfl⟩ := List.cons.inj heq
    exact nextSlash_of_endsRun hends
  | comment hbody hends =>
    obtain ⟨rfl, rfl⟩ := List.cons.inj heq
    exact nextSlash_of_comment hbody hends
  | @blank c' _ hc =>
    obtain ⟨rfl, rfl⟩ := List.cons.inj heq
    exact next_of_mem_skipped ((mem_skipped_iff c').mpr hc) _
  | string hinner =>
    rw [List.cons_append, List.cons_append, List.append_assoc, List.singleton_append] at heq
    obtain ⟨rfl, rfl⟩ := List.cons.inj heq
    exact nextString_append hinner _
  | unterminated hinner =>
    rw [List.append_nil] at heq
    obtain ⟨rfl, rfl⟩ := List.cons.inj heq
    exact nextString_of_not_mem hinner
  -- A number has a digit at its front, and so has its fraction.
  | @whole digits _ x hne hdigits hends hfraction hx =>
    obtain ⟨d, digits, rfl⟩ := List.exists_cons_of_ne_nil hne
    rw [List.cons_append] at heq
    obtain ⟨rfl, rfl⟩ := List.cons.inj heq
    obtain ⟨hd, hdigits⟩ := List.forall_mem_cons.mp hdigits
    rw [next_of_digit hd, nextNumber_of_whole hdigits hends hfraction, numberOf, numberLabel_eq hx]
  | @fraction digits fraction _ x hne hdigits hfne hfraction hends hx =>
    obtain ⟨d, digits, rfl⟩ := List.exists_cons_of_ne_nil hne
    obtain ⟨f, fraction, rfl⟩ := List.exists_cons_of_ne_nil hfne
    rw [List.cons_append, List.cons_append, List.append_assoc, List.cons_append,
      List.cons_append] at heq
    obtain ⟨rfl, rfl⟩ := List.cons.inj heq
    obtain ⟨hd, hdigits⟩ := List.forall_mem_cons.mp hdigits
    obtain ⟨hf, hfraction⟩ := List.forall_mem_cons.mp hfraction
    rw [next_of_digit hd, nextNumber_of_fraction hdigits hf hfraction hends, numberOf,
      numberLabel_eq hx]
  | word hletter hparts hends =>
    obtain ⟨rfl, rfl⟩ := List.cons.inj heq
    rw [next_of_letter hletter]
    exact nextWord_of_parts hparts hends
  | unexpected hp he hslash hblank hnewline hquote hdigit hletter =>
    obtain ⟨rfl, rfl⟩ := List.cons.inj heq
    simp [next, hp, he, hslash, hblank, hnewline, hquote, hdigit, hletter]

/-- Clusters that begin with a lexeme in one of its forms are cut there. -/
theorem Taken.all_eq {l : Lexeme} {rest : List Cluster} (h : Taken l rest) :
    all (l.body ++ rest) = l :: all rest := by
  obtain ⟨c, tail, hbody⟩ := List.exists_cons_of_ne_nil h.body_ne_nil
  have heq : l.body ++ rest = c :: (tail ++ rest) := by rw [hbody, List.cons_append]
  rw [heq, all, h.next_eq heq]

/-- Clusters that are a lexeme with nothing behind it are just that lexeme. -/
theorem Taken.all_body {l : Lexeme} (h : Taken l []) : all l.body = [l] := by
  have hall := h.all_eq
  rwa [List.append_nil, all] at hall

end LoxCalc.Lexeme
