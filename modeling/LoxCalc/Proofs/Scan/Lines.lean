import LoxCalc.Proofs.Scan.Lossless
import LoxCalc.Proofs.Text.Lines
import LoxCalc.Proofs.Unicode.Boundary

/-!
# Which line a token or a fault is on

A scan counts the line ends up to and within each lexeme (`Scan.located`), and the machine that
scans comes to the same lines by counting them one by one. Of the segmentation it is taken that line
feeds stand apart, each alone in its cluster or behind a carriage return; then the count is the
number of line feeds in the text, whichever way the text was cut into clusters and lexemes. So a
token is on the line of its last character, as the lines of a file are counted (`LinesCounted`).
-/

namespace LoxCalc

open Unicode (Cluster)

/-- Every line feed is alone in its cluster, or behind a carriage return. -/
def LineFeedsApart (cs : List Cluster) : Prop :=
  ∀ c ∈ cs, '\n' ∈ c → c = ['\n'] ∨ c = ['\r', '\n']

/-- Where line feeds stand apart, as many clusters end lines as there are line feeds. -/
theorem LineFeedsApart.countP_isNewline {cs : List Cluster} (h : LineFeedsApart cs) :
    cs.countP Lexeme.isNewline = cs.flatten.count '\n' := by
  induction cs with
  | nil => rfl
  | cons c cs ih =>
    obtain ⟨hc, hcs⟩ := List.forall_mem_cons.mp h
    rw [List.countP_cons, ih hcs, List.flatten_cons, List.count_append, Nat.add_comm]
    congr 1
    by_cases hlf : '\n' ∈ c
    · rcases hc hlf with rfl | rfl <;> rfl
    · -- A cluster that ends a line has a line feed, so this one ends none.
      rw [List.count_eq_zero_of_not_mem hlf, if_neg]
      intro hnewline
      simp only [Lexeme.isNewline, Bool.or_eq_true, beq_iff_eq] at hnewline
      rcases hnewline with rfl | rfl <;> exact hlf (by decide)

/-- The characters of lexemes that follow one another. -/
def Lexeme.chars (ls : List Lexeme) : List Char :=
  (ls.map fun l => l.text.toList).flatten

namespace Lexeme

/-- The characters of lexemes are those of their clusters. -/
theorem chars_eq (ls : List Lexeme) : chars ls = (ls.map body).flatten.flatten := by
  rw [List.flatten_flatten, chars, List.map_map]
  congr 1
  simp [text, Function.comp_def]

/-- How many lines end within lexemes. -/
def lineEnds (ls : List Lexeme) : Nat :=
  (ls.map body).flatten.countP isNewline

/-- No lexemes end no lines. -/
@[simp]
theorem lineEnds_nil : lineEnds [] = 0 := rfl

/-- A lexeme ends its lines in front of those of the others. -/
@[simp]
theorem lineEnds_cons (l : Lexeme) (ls : List Lexeme) :
    lineEnds (l :: ls) = l.newlines + lineEnds ls := by
  simp [lineEnds, newlines]

/-- Line ends add up. -/
@[simp]
theorem lineEnds_append (ls ls' : List Lexeme) :
    lineEnds (ls ++ ls') = lineEnds ls + lineEnds ls' := by
  simp [lineEnds]

/-- The line ends of lexemes are the line feeds of their characters. -/
theorem lineEnds_eq_count {ls : List Lexeme} (h : LineFeedsApart (ls.map body).flatten) :
    lineEnds ls = (chars ls).count '\n' := by
  rw [chars_eq, ← h.countP_isNewline, lineEnds]

/-! ## The last character of a token -/

/-- A cluster without the characters that end lines. -/
def Plain (c : Cluster) : Prop :=
  c ≠ [] ∧ '\n' ∉ c ∧ '\r' ∉ c

/-- Neither character that ends lines is a letter or a digit. -/
theorem plain_of_isWordPart {c : Cluster} (h : isWordPart c = true) : Plain c := by
  rw [isWordPart, Bool.or_eq_true, Bool.and_eq_true, beq_iff_eq] at h
  rcases h with ⟨hne, hparts⟩ | rfl
  · have hpart := List.all_eq_true.mp hparts
    refine ⟨by simpa using hne, fun hmem => ?_, fun hmem => ?_⟩
    · exact absurd (hpart _ hmem) (by decide)
    · exact absurd (hpart _ hmem) (by decide)
  · unfold Plain
    decide

/-- What ends in a plain cluster ends in a character that ends no line. -/
theorem exists_last (front : List Cluster) {c : Cluster} (h : Plain c) :
    ∃ upto last, (front ++ [c]).flatten = upto ++ [last] ∧ last ≠ '\n' ∧ last ≠ '\r' := by
  obtain ⟨hne, hlf, hcr⟩ := h
  have hlast := List.getLast_mem hne
  refine ⟨front.flatten ++ c.dropLast, c.getLast hne, ?_, ?_, ?_⟩
  · rw [List.append_assoc, List.dropLast_append_getLast]
    simp
  · exact fun heq => hlf (heq ▸ hlast)
  · exact fun heq => hcr (heq ▸ hlast)

/-- What ends with a part of a word ends within a line. -/
theorem exists_last_of_isWordPart (front : List Cluster) {parts : List Cluster} (hne : parts ≠ [])
    (hparts : ∀ c ∈ parts, isWordPart c = true) :
    ∃ upto last, (front ++ parts).flatten = upto ++ [last] ∧ last ≠ '\n' ∧ last ≠ '\r' := by
  have hlast := exists_last (front ++ parts.dropLast)
    (plain_of_isWordPart (hparts _ (List.getLast_mem hne)))
  rwa [List.append_assoc, List.dropLast_append_getLast] at hlast

/-- A token does not end with the end of a line. -/
theorem Taken.exists_last {l : Lexeme} {rest : List Cluster} (h : Taken l rest) {kind : TokenKind}
    {literal : Option Literal} (hl : l.label = .token kind literal) :
    ∃ upto last, l.body.flatten = upto ++ [last] ∧ last ≠ '\n' ∧ last ≠ '\r' := by
  have hpunctuation : ∀ p ∈ Lexeme.punctuation, Plain p.1 := by unfold Plain; decide
  have hequalizable : ∀ p ∈ equalizable, Plain p.1 := by unfold Plain; decide
  have hsigns : Plain ['='] ∧ Plain ['/'] ∧ Plain quote := by unfold Plain; decide
  -- The last character of a token is a sign, a quote or part of a word, none of which ends a line.
  cases h with
  | punctuation hlookup =>
    exact Lexeme.exists_last [] (hpunctuation _ (mem_of_lookup_eq_some hlookup))
  | short hlookup _ => exact Lexeme.exists_last [] (hequalizable _ (mem_of_lookup_eq_some hlookup))
  | @long c => exact Lexeme.exists_last [c] hsigns.1
  | slash _ => exact Lexeme.exists_last [] hsigns.2.1
  | string _ => exact Lexeme.exists_last _ hsigns.2.2
  | whole hne hdigits _ _ _ =>
    exact exists_last_of_isWordPart [] hne fun c hc => isWordPart_of_isDigit (hdigits c hc)
  | @fraction digits fraction _ _ _ _ hne hfraction _ _ =>
    have hlast := exists_last_of_isWordPart (digits ++ [['.']]) hne
      fun c hc => isWordPart_of_isDigit (hfraction c hc)
    rwa [List.append_assoc] at hlast
  | word hletter hword _ =>
    exact exists_last_of_isWordPart [] (List.cons_ne_nil _ _)
      (List.forall_mem_cons.mpr ⟨isWordPart_of_isLetter hletter, hword⟩)
  | _ => cases hl

end Lexeme

/-! ## The lines of lexemes -/

namespace Scan

open Lexeme (lineEnds)

/-- Lexemes with the lines they end on, when the first begins on the given line. -/
def located (line : Nat) : List Lexeme → List (Lexeme × Nat)
  | [] => []
  | l :: rest => (l, line + l.newlines) :: located (line + l.newlines) rest

/-- The token that a lexeme on a line is, if it is one. -/
def tokenAt? (p : Lexeme × Nat) : Option Token :=
  p.1.token?.map fun (kind, literal, lexeme) => ⟨kind, lexeme, literal, p.2⟩

/-- The fault that a lexeme on a line is, if it is one. -/
def faultAt? (p : Lexeme × Nat) : Option LexicalFault :=
  p.1.cause?.map fun cause => ⟨cause, p.2⟩

/-- A scan is what the lexemes are on their lines. -/
theorem ofLexemes_eq (line : Nat) (ls : List Lexeme) :
    ofLexemes line ls = ⟨(located line ls).filterMap tokenAt?, (located line ls).filterMap faultAt?,
      line + lineEnds ls⟩ := by
  induction ls generalizing line with
  | nil => rfl
  | cons l rest ih =>
    cases hlabel : l.label <;>
      simp [ofLexemes, located, tokenAt?, faultAt?, Lexeme.token?, Lexeme.cause?, hlabel, ih,
        Nat.add_assoc]

/-- What comes behind lexemes is as many lines down as they end. -/
theorem located_append (line : Nat) (ls ls' : List Lexeme) :
    located line (ls ++ ls') =
      located line ls ++ located (line + lineEnds ls) ls' := by
  induction ls generalizing line with
  | nil => rfl
  | cons l ls ih => simp [located, ih, Nat.add_assoc]

/-- What is found at an index was found in one of the lexemes, with as many found before it. -/
theorem exists_of_filterMap_located {β : Type} {find : Lexeme × Nat → Option β} {line i : Nat}
    {ls : List Lexeme} {found : β} (h : ((located line ls).filterMap find)[i]? = some found) :
    ∃ before l after, ls = before ++ l :: after ∧
      ((located line before).filterMap find).length = i ∧
      find (l, line + lineEnds (before ++ [l])) = some found := by
  induction ls generalizing line i with
  | nil => simp [located] at h
  | cons l ls ih =>
    rw [located, List.filterMap_cons] at h
    cases hfind : find (l, line + l.newlines) with
    | none =>
      -- Nothing is found in the first lexeme: the index counts from the next one on.
      rw [hfind] at h
      obtain ⟨before, l', after, rfl, hlength, hfound⟩ := ih h
      refine ⟨l :: before, l', after, rfl, ?_, ?_⟩
      · simpa [located, hfind] using hlength
      · simpa [Nat.add_assoc] using hfound
    | some first =>
      rw [hfind] at h
      cases i with
      | zero =>
        obtain rfl : first = found := by simpa using h
        exact ⟨[], l, ls, rfl, rfl, by simpa using hfind⟩
      | succ i =>
        obtain ⟨before, l', after, rfl, hlength, hfound⟩ := ih h
        refine ⟨l :: before, l', after, rfl, ?_, ?_⟩
        · simpa [located, hfind] using hlength
        · simpa [Nat.add_assoc] using hfound

/-- No lexeme is above the first line or below the last. -/
theorem le_of_mem_located {line : Nat} {ls : List Lexeme} {p : Lexeme × Nat}
    (h : p ∈ located line ls) : line ≤ p.2 ∧ p.2 ≤ line + lineEnds ls := by
  induction ls generalizing line with
  | nil => simp [located] at h
  | cons l ls ih =>
    rw [Lexeme.lineEnds_cons]
    rcases List.mem_cons.mp h with rfl | h
    · simp only
      omega
    · have := ih h
      omega

/-- Lines do not decrease. -/
theorem pairwise_located (line : Nat) (ls : List Lexeme) :
    (located line ls).Pairwise (·.2 ≤ ·.2) := by
  induction ls generalizing line with
  | nil => exact .nil
  | cons l ls ih => exact .cons (fun p hp => (le_of_mem_located hp).1) (ih _)

/-- The lines of what is found in lexemes do not decrease up to the last line. -/
theorem pairwise_filterMap_located {β : Type} {find : Lexeme × Nat → Option β} {lineOf : β → Nat}
    (hline : ∀ p found, find p = some found → lineOf found = p.2) (line : Nat) (ls : List Lexeme) :
    (((located line ls).filterMap find).map lineOf ++
      [line + lineEnds ls]).Pairwise (· ≤ ·) := by
  rw [List.pairwise_append, List.pairwise_map, List.pairwise_filterMap]
  refine ⟨(pairwise_located line ls).imp ?_, List.pairwise_singleton _ _, ?_⟩
  · intro p p' hle found hfound found' hfound'
    rwa [hline p found hfound, hline p' found' hfound']
  · -- The line at the end is the last one.
    intro number hnumber last hlast
    obtain ⟨found, hfound, rfl⟩ := List.mem_map.mp hnumber
    obtain ⟨p, hp, hfind⟩ := List.mem_filterMap.mp hfound
    rw [List.mem_singleton.mp hlast, hline p found hfind]
    exact (le_of_mem_located hp).2

/-- A token is its lexeme, on the line of it. -/
theorem of_tokenAt?_eq_some {p : Lexeme × Nat} {t : Token} (h : tokenAt? p = some t) :
    p.1.token? = some (t.kind, t.literal, t.lexeme) ∧ t.line = p.2 := by
  obtain ⟨_, htoken, rfl⟩ := Option.map_eq_some_iff.mp h
  exact ⟨htoken, rfl⟩

/-- A fault is its lexeme, on the line of it. -/
theorem of_faultAt?_eq_some {p : Lexeme × Nat} {f : LexicalFault} (h : faultAt? p = some f) :
    p.1.cause? = some f.cause ∧ f.line = p.2 := by
  obtain ⟨_, hcause, rfl⟩ := Option.map_eq_some_iff.mp h
  exact ⟨hcause, rfl⟩

/-- There are as many tokens and faults as lexemes that are such. -/
theorem length_filterMap_located (line : Nat) (ls : List Lexeme) :
    ((located line ls).filterMap tokenAt?).length = (ls.filterMap Lexeme.token?).length ∧
      ((located line ls).filterMap faultAt?).length = (ls.filterMap Lexeme.cause?).length := by
  have htokens := tokens_ofLexemes line ls
  have hfaults := faults_ofLexemes line ls
  rw [ofLexemes_eq] at htokens hfaults
  exact ⟨by rw [← htokens, List.length_map], by rw [← hfaults, List.length_map]⟩

end Scan

/-- How a scan of a source, by way of the segments it is cut into, numbers lines: from one, and by
line feeds. -/
structure LinesCounted (source : String) (segments : List Lexeme) (scan : Scan) : Prop where
  /-- The segments cover the source. -/
  covers : Lexeme.chars segments = source.toList
  /-- A token, which is the token segment with its index, is on the line of its last character. -/
  token : ∀ i t, scan.tokens[i]? = some t → ∃ before l after, segments = before ++ l :: after ∧
    (before.filterMap Lexeme.token?).length = i ∧ l.token? = some (t.kind, t.literal, t.lexeme) ∧
    t.line = 1 + (Lexeme.chars (before ++ [l])).count '\n' ∧
    Text.OnLine source t.line (Lexeme.chars (before ++ [l]))
  /-- The end is on the last line. -/
  eof : scan.eof.line = 1 + source.toList.count '\n'
  /-- A fault, which is the fault segment with its index, is on the line of its cluster, or on the
  last line if it is a string without an end. -/
  fault : ∀ i f, scan.faults[i]? = some f → ∃ before l after, segments = before ++ l :: after ∧
    (before.filterMap Lexeme.cause?).length = i ∧ l.cause? = some f.cause ∧
    ((f.cause = .unexpectedCharacter ∧ (∃ c, l.body = [c]) ∧
        f.line = 1 + (Lexeme.chars before).count '\n') ∨
      (f.cause = .unterminatedString ∧ f.line = scan.eof.line))
  /-- The lines of tokens do not decrease. -/
  tokens_sorted : (scan.allTokens.map Token.line).Pairwise (· ≤ ·)
  /-- The lines of faults do not decrease, up to the line of the end. -/
  faults_sorted : (scan.faults.map LexicalFault.line ++ [scan.eof.line]).Pairwise (· ≤ ·)
  /-- Every line is a number of 32 bits. -/
  fits : scan.eof.line < 0x100000000
  /-- The machine over the clusters of the segments counts the lines as it goes past their ends, one
  at a time, within strings and between lexemes. It comes to the end on the same line, with these
  tokens and faults. -/
  machine : ∃ s, Scan.Machine.scan (segments.map Lexeme.body).flatten = some s ∧
    s.tokens = scan.allTokens ∧ s.faults = scan.faults ∧ s.line = scan.eof.line

/-- In the first lexemes of a scan, line ends are line feeds. -/
theorem LineFeedsApart.lineEnds_eq_count {cs : List Cluster} (h : LineFeedsApart cs)
    {before after : List Lexeme} (hall : Lexeme.all cs = before ++ after) :
    Lexeme.lineEnds before = (Lexeme.chars before).count '\n' := by
  refine Lexeme.lineEnds_eq_count fun c hc => h c ?_
  rw [← Lexeme.flatten_body_all cs, hall, List.map_append, List.flatten_append]
  exact List.mem_append_left _ hc

/-- What is found at an index in a scan is on the line after as many as there are line feeds up to
the end of its lexeme. -/
theorem LineFeedsApart.exists_of_filterMap {cs : List Cluster} (h : LineFeedsApart cs) {β : Type}
    {find : Lexeme × Nat → Option β} {i : Nat} {found : β}
    (hfound : ((Scan.located 1 (Lexeme.all cs)).filterMap find)[i]? = some found) :
    ∃ before l after, Lexeme.all cs = before ++ l :: after ∧
      ((Scan.located 1 before).filterMap find).length = i ∧
      find (l, 1 + (Lexeme.chars (before ++ [l])).count '\n') = some found := by
  obtain ⟨before, l, after, hall, hindex, hfind⟩ := Scan.exists_of_filterMap_located hfound
  have hall' : Lexeme.all cs = (before ++ [l]) ++ after := by simpa using hall
  rw [h.lineEnds_eq_count hall'] at hfind
  exact ⟨before, l, after, hall, hindex, hfind⟩

/-- A token of a scan is on the line of its last character. -/
theorem Lexeme.onLine_of_all_eq {source : String} {cs : List Cluster}
    (hcs : cs.flatten = source.toList) {before after : List Lexeme} {l : Lexeme}
    (hall : all cs = before ++ l :: after) {kind : TokenKind} {literal : Option Literal}
    (hl : l.label = .token kind literal) :
    Text.OnLine source (1 + (chars (before ++ [l])).count '\n') (chars (before ++ [l])) := by
  obtain ⟨upto, last, hbody, hlf, hcr⟩ := (taken_of_all_eq hall).exists_last hl
  -- The last character of the token stands on the line, and there is no line end behind it in the
  -- token.
  have hupto : chars (before ++ [l]) = (chars before ++ upto) ++ [last] := by
    simp [chars, text, hbody]
  have hsource : source.toList = (chars before ++ upto) ++ last :: chars after := by
    rw [← hcs, ← flatten_body_all cs, hall, ← chars_eq]
    simp [chars, text, hbody]
  have hcount : (chars (before ++ [l])).count '\n' = (chars before ++ upto).count '\n' := by
    rw [hupto, List.count_append, List.count_singleton, if_neg (by simpa using hlf), Nat.add_zero]
  rw [hcount, hupto]
  exact Text.onLine_of_toList_eq hsource hlf hcr

/-- An unexpected cluster does not end a line. -/
theorem Lexeme.Taken.newlines_eq_zero {l : Lexeme} {rest : List Cluster} (h : Taken l rest)
    (hl : l.label = .fault .unexpectedCharacter) : l.newlines = 0 := by
  cases h with
  | unexpected _ _ _ _ hnewline => simp [newlines, hnewline]
  | _ => cases hl

/-- The extended grapheme clusters of a text keep line feeds apart. -/
theorem lineFeedsApart_segment (text : List Char) : LineFeedsApart (Cluster.segment text) :=
  fun _ => Cluster.eq_of_lineFeed_mem

/-- A source, cut in any way into clusters that keep line feeds apart, is scanned with the lines
that its line feeds make. -/
theorem linesCounted_ofClusters (source : String) (cs : List Cluster)
    (hcs : cs.flatten = source.toList) (hlf : LineFeedsApart cs)
    (hcount : source.toList.count '\n' < 0xFFFFFFFF) :
    LinesCounted source (Lexeme.all cs) (Scan.ofClusters cs) := by
  have hcovers : Lexeme.chars (Lexeme.all cs) = source.toList := by
    rw [Lexeme.chars_eq, Lexeme.flatten_body_all, hcs]
  have heof : 1 + source.toList.count '\n' = 1 + Lexeme.lineEnds (Lexeme.all cs) := by
    rw [← hcovers, ← hlf.lineEnds_eq_count (List.append_nil _).symm]
  rw [Scan.ofClusters, Scan.ofLexemes_eq]
  constructor
  case covers => exact hcovers
  case token =>
    intro i t ht
    obtain ⟨before, l, after, hall, hindex, hfind⟩ := hlf.exists_of_filterMap ht
    obtain ⟨htoken, hnumber⟩ := Scan.of_tokenAt?_eq_some hfind
    rw [(Scan.length_filterMap_located 1 before).1] at hindex
    refine ⟨before, l, after, hall, hindex, htoken, hnumber, ?_⟩
    rw [hnumber]
    exact Lexeme.onLine_of_all_eq hcs hall (Lexeme.token?_eq_some_iff.mp htoken).1
  case eof => exact heof.symm
  case fault =>
    intro i f hf
    obtain ⟨before, l, after, hall, hindex, hfind⟩ := hlf.exists_of_filterMap hf
    obtain ⟨hcause, hnumber⟩ := Scan.of_faultAt?_eq_some hfind
    rw [(Scan.length_filterMap_located 1 before).2] at hindex
    refine ⟨before, l, after, hall, hindex, hcause, ?_⟩
    have htaken := Lexeme.taken_of_all_eq hall
    have hlabel := Lexeme.cause?_eq_some_iff.mp hcause
    rcases htaken.fault_cases hlabel with ⟨hunexpected, hone⟩ | ⟨hunterminated, hrest, -⟩
    · refine .inl ⟨hunexpected, hone, ?_⟩
      -- The cluster ends no line itself, so its line is that of what stands before it.
      have hall' : Lexeme.all cs = (before ++ [l]) ++ after := by simpa using hall
      have hzero := htaken.newlines_eq_zero (hunexpected ▸ hlabel)
      rw [hnumber, ← hlf.lineEnds_eq_count hall', ← hlf.lineEnds_eq_count hall]
      simp [hzero]
    · -- Nothing follows the string, so its end is the end of the source.
      obtain rfl := Lexeme.eq_nil_of_flatten_eq_nil hall hrest
      refine .inr ⟨hunterminated, ?_⟩
      rw [hnumber, ← hall, hcovers]
      exact heof
  case tokens_sorted =>
    rw [Scan.allTokens, List.map_append]
    exact Scan.pairwise_filterMap_located (fun _ _ h => (Scan.of_tokenAt?_eq_some h).2) 1 _
  case faults_sorted =>
    exact Scan.pairwise_filterMap_located (fun _ _ h => (Scan.of_faultAt?_eq_some h).2) 1 _
  case fits =>
    calc 1 + Lexeme.lineEnds (Lexeme.all cs)
        = 1 + source.toList.count '\n' := heof.symm
      _ < 0x100000000 := by omega
  case machine =>
    obtain ⟨s, hscan, htokens, hfaults, hline, -⟩ := Scan.Machine.scan_eq cs
    rw [Scan.ofClusters, Scan.ofLexemes_eq] at htokens hfaults hline
    rw [Lexeme.flatten_body_all]
    exact ⟨s, hscan, htokens, hfaults, hline⟩

/-- A string over a line that a carriage return and a line feed end, and a fault behind it. -/
theorem linesCounted_string_over_lines :
    LineFeedsApart (Cluster.segment "\"a\r\nb\"@".toList) ∧
      "\"a\r\nb\"@".toList.count '\n' < 0xFFFFFFFF ∧
      LinesCounted "\"a\r\nb\"@" (Lexeme.all (Cluster.segment "\"a\r\nb\"@".toList))
        (Scan.ofSource "\"a\r\nb\"@") ∧
      (Scan.ofSource "\"a\r\nb\"@").eof.line = 2 := by
  have hcounted := linesCounted_ofClusters "\"a\r\nb\"@" _ (Cluster.flatten_segment _)
    (lineFeedsApart_segment _) (by decide)
  exact ⟨lineFeedsApart_segment _, by decide, hcounted, hcounted.eof⟩

end LoxCalc
