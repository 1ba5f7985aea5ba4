import LoxCalc.Proofs.Lexeme.Exact
import LoxCalc.Proofs.Scan.Lines

/-!
# Scanning line by line

The scan of two texts with a line feed between them is the scan of the first and then, on later
lines, the scan of the second (`scan_append_lineFeed`), unless a string is open at the end of the
first.

The end of a line ends every lexeme that could go on, other than an open string, and does not change
what was taken before it (`Taken.append_skipped`): so the lexemes of the first text are the same
with the second behind them (`all_append_newline`). The one thing that the line feed can change is
the segmentation: a carriage return at the end of the first text joins it. But a blank at the end of
a text does not count (`ofLexemes_append_blank`).
-/

namespace LoxCalc

open Unicode (Cluster)

/-- The token some lines further down. -/
def Token.shift (lines : Nat) (t : Token) : Token :=
  { t with line := t.line + lines }

/-- The fault some lines further down. -/
def LexicalFault.shift (lines : Nat) (f : LexicalFault) : LexicalFault :=
  { f with line := f.line + lines }

/-- The scan of a text that begins some lines further down. -/
def Scan.shift (lines : Nat) (scan : Scan) : Scan :=
  ⟨scan.tokens.map (Token.shift lines), scan.faults.map (LexicalFault.shift lines),
    scan.line + lines⟩

/-! ## The seam of two texts -/

/-- The clusters of two texts with a line feed between them: those of the first up to a carriage
return at its end, the end of the line, and those of the second. -/
theorem exists_seam (first second : List Char) :
    ∃ cs n, Lexeme.isNewline n = true ∧
      Cluster.segment (first ++ '\n' :: second) = cs ++ n :: Cluster.segment second ∧
      (Cluster.segment first = cs ∨ Cluster.segment first = cs ++ [['\r']]) := by
  rw [Cluster.segment_append_lineFeed]
  by_cases hlast : first.getLast? = some '\r'
  · -- The carriage return is a cluster by itself, until the line feed comes behind it.
    obtain ⟨front, rfl⟩ := List.getLast?_eq_some_iff.mp hlast
    refine ⟨Cluster.segment front, ['\r', '\n'], rfl, ?_, .inr ?_⟩
    · have hline : Cluster.segment ['\r', '\n'] = [['\r', '\n']] := by decide
      rw [List.append_assoc, List.singleton_append, Cluster.segment_append_line (.inl rfl), hline,
        List.append_assoc, List.singleton_append]
    · exact Cluster.segment_append_line (.inl rfl) []
  · refine ⟨Cluster.segment first, ['\n'], rfl, ?_, .inl rfl⟩
    have hline : Cluster.segment ['\n'] = [['\n']] := by decide
    rw [Cluster.segment_append_line (.inr ⟨rfl, hlast⟩), hline, List.append_assoc,
      List.singleton_append]

namespace Lexeme

/-! ## What follows a lexeme -/

/-- A run that ends does so with more behind it, if this does not go on. -/
theorem EndsRun.append {p : Cluster → Bool} {rest : List Cluster} (h : EndsRun p rest) {x : Cluster}
    (hx : p x = false) (more : List Cluster) : EndsRun p (rest ++ x :: more) := by
  cases rest with
  | nil => exact endsRun_cons.mpr hx
  | cons c rest => exact endsRun_cons.mpr (endsRun_cons.mp h)

/-- No fraction begins with more behind what is there, if this is neither a point nor a digit. -/
theorem beginsFraction_append {rest : List Cluster} (h : beginsFraction rest = false) {x : Cluster}
    (hpoint : x ≠ ['.']) (hdigit : isDigit x = false) (more : List Cluster) :
    beginsFraction (rest ++ x :: more) = false := by
  unfold beginsFraction
  split
  · -- A point and a digit: neither can be `x`, so both stand in `rest`.
    next d tail heq =>
    match rest, heq, h with
    | [], heq, _ => exact absurd (List.cons.inj heq).1 hpoint
    | [_], heq, _ =>
      obtain ⟨rfl, -⟩ := List.cons.inj (List.cons.inj heq).2
      exact hdigit
    | _ :: _ :: _, heq, h =>
      obtain ⟨rfl, htail⟩ := List.cons.inj heq
      obtain ⟨rfl, -⟩ := List.cons.inj htail
      exact h
  · rfl

/-- A lexeme stays as it is when a blank or the end of a line comes behind what follows it, unless
it is open and takes that in: as a comment or a string without an end. -/
theorem Taken.append_skipped {l : Lexeme} {rest : List Cluster} (h : Taken l rest) {x : Cluster}
    (hx : x ∈ skipped) (more : List Cluster) :
    Taken l (rest ++ x :: more) ∨
      (rest = [] ∧ Taken ⟨l.label, l.body ++ [x]⟩ [] ∧
        (l.label = .fault .unterminatedString ∨ (l.label = .trivia ∧ isNewline x = false))) := by
  have hfacts : ∀ x ∈ skipped, (x == ['=']) = false ∧ (x == ['/']) = false ∧ x ≠ quote ∧
      x ≠ ['.'] ∧ isDigit x = false ∧ isWordPart x = false := by decide
  obtain ⟨hequal, hslash, hquote, hpoint, hdigit, hpart⟩ := hfacts x hx
  cases h with
  | punctuation hlookup => exact .inl (.punctuation hlookup)
  | short hlookup hends => exact .inl (.short hlookup (hends.append hequal more))
  | long hlookup => exact .inl (.long hlookup)
  | slash hends => exact .inl (.slash (hends.append hslash more))
  | @comment body _ hbody hends =>
    cases rest with
    | cons c rest => exact .inl (.comment hbody (endsRun_cons.mpr (endsRun_cons.mp hends)))
    | nil =>
      -- The comment goes to the end of the source: only the end of a line stops it.
      cases hnewline : isNewline x with
      | true => exact .inl (.comment hbody (endsRun_cons.mpr (by rw [hnewline]; rfl)))
      | false =>
        have hbody' : ∀ c ∈ body ++ [x], isNewline c = false := by
          simpa [or_imp, forall_and, hnewline] using hbody
        exact .inr ⟨rfl, .comment hbody' (endsRun_nil _), .inr ⟨rfl, rfl⟩⟩
  | blank hc => exact .inl (.blank hc)
  | string hinner => exact .inl (.string hinner)
  | @unterminated inner hinner =>
    have hinner' : quote ∉ inner ++ [x] := by simp [hinner, Ne.symm hquote]
    exact .inr ⟨rfl, .unterminated hinner', .inl rfl⟩
  | whole hne hdigits hends hfraction hx =>
    exact .inl (.whole hne hdigits (hends.append hdigit more)
      (beginsFraction_append hfraction hpoint hdigit more) hx)
  | fraction hne hdigits hfne hfraction hends hx =>
    exact .inl (.fraction hne hdigits hfne hfraction (hends.append hdigit more) hx)
  | word hletter hparts hends => exact .inl (.word hletter hparts (hends.append hpart more))
  | unexpected h₁ h₂ h₃ h₄ h₅ h₆ h₇ h₈ => exact .inl (.unexpected h₁ h₂ h₃ h₄ h₅ h₆ h₇ h₈)

/-- The lexemes of the first clusters are the same with a newline and more clusters behind them, if
no string is open. -/
theorem all_append_newline {cs : List Cluster}
    (h : ∀ l ∈ all cs, l.label ≠ .fault .unterminatedString) {n : Cluster}
    (hn : isNewline n = true) (more : List Cluster) :
    all (cs ++ n :: more) = all cs ++ ⟨.trivia, [n]⟩ :: all more := by
  -- Each lexeme is taken as it was, unless it reaches the end and takes in what comes; a line end
  -- ends what does.
  fun_induction all cs with
  | case1 => exact Taken.all_eq (.blank (.inr hn))
  | case2 c rest ih =>
    obtain ⟨hfirst, hrest⟩ := List.forall_mem_cons.mp h
    rcases (taken_next c rest).append_skipped ((mem_skipped_iff n).mpr (.inr hn)) more with
      htaken | ⟨-, -, hopen | ⟨-, hblank⟩⟩
    · rw [← next_append c rest, List.append_assoc, htaken.all_eq, ih hrest]
      rfl
    · exact absurd hopen hfirst
    · simp [hn] at hblank

end Lexeme

namespace Scan

open Lexeme (isBlank all Taken)

/-- What is no token does not show a blank at its end. -/
theorem ofLexemes_of_blank {l : Lexeme} {x : Cluster} (hx : Lexeme.isNewline x = false)
    (hl : l.label = .fault .unterminatedString ∨ l.label = .trivia) (line : Nat) :
    ofLexemes line [⟨l.label, l.body ++ [x]⟩] = ofLexemes line [l] := by
  rcases hl with hl | hl <;> simp [ofLexemes, Lexeme.newlines, hl, hx]

/-- A blank at the end of a text does not count. -/
theorem ofLexemes_append_blank {x : Cluster} (hx : isBlank x = true) (line : Nat)
    (cs : List Cluster) : ofLexemes line (all (cs ++ [x])) = ofLexemes line (all cs) := by
  have hblank : ∀ x ∈ Lexeme.skipped, isBlank x = true → Lexeme.isNewline x = false := by decide
  have hskipped : x ∈ Lexeme.skipped := (Lexeme.mem_skipped_iff x).mpr (.inl hx)
  have hnewline := hblank x hskipped hx
  fun_induction all cs generalizing line with
  | case1 =>
    rw [List.nil_append, ← List.append_nil [x], Taken.all_eq (.blank (.inl hx))]
    simp [all, ofLexemes, Lexeme.newlines, hnewline]
  | case2 c rest ih =>
    rw [← Lexeme.next_append c rest]
    rcases (Lexeme.taken_next c rest).append_skipped hskipped [] with
      htaken | ⟨hrest, hopen, hlabel⟩
    · rw [List.append_assoc, htaken.all_eq, ofLexemes, ofLexemes, ih]
    · -- The lexeme at the end takes the blank in, and is no token that would show it.
      have hall := hopen.all_eq
      rw [List.append_nil, all] at hall
      rw [hrest, List.append_nil, hall, all]
      exact ofLexemes_of_blank hnewline (hlabel.imp_right And.left) line

/-- A scan that begins further down is the same scan, further down. -/
theorem ofLexemes_add (line lines : Nat) (ls : List Lexeme) :
    ofLexemes (line + lines) ls = (ofLexemes line ls).shift lines := by
  induction ls generalizing line with
  | nil => rfl
  | cons l rest ih =>
    have hline : line + lines + l.newlines = line + l.newlines + lines := by omega
    cases hlabel : l.label <;>
      simp [ofLexemes, hlabel, hline, ih, shift, Token.shift, LexicalFault.shift]

/-- Lexemes that follow others begin on the line that the others end on. -/
theorem ofLexemes_append (line : Nat) (ls ls' : List Lexeme) :
    ofLexemes line (ls ++ ls') =
      ⟨(ofLexemes line ls).tokens ++ (ofLexemes (ofLexemes line ls).line ls').tokens,
        (ofLexemes line ls).faults ++ (ofLexemes (ofLexemes line ls).line ls').faults,
        (ofLexemes (ofLexemes line ls).line ls').line⟩ := by
  simp [ofLexemes_eq, located_append, Nat.add_assoc]

/-- The end of a scan is moved with its tokens. -/
theorem allTokens_shift (lines : Nat) (scan : Scan) :
    (scan.shift lines).allTokens = scan.allTokens.map (Token.shift lines) := by
  simp [allTokens, shift, eof, Token.eof, Token.shift]

/-- Clusters behind the end of a line are scanned by themselves. -/
theorem ofClusters_append_newline {cs : List Cluster}
    (h : ∀ f ∈ (ofClusters cs).faults, f.cause ≠ .unterminatedString) {n : Cluster}
    (hn : Lexeme.isNewline n = true) (more : List Cluster) :
    (ofClusters (cs ++ n :: more)).allTokens = (ofClusters cs).tokens ++
        (ofClusters more).allTokens.map (Token.shift (ofClusters cs).eof.line) ∧
      (ofClusters (cs ++ n :: more)).faults = (ofClusters cs).faults ++
        (ofClusters more).faults.map (LexicalFault.shift (ofClusters cs).eof.line) := by
  have hclosed : ∀ l ∈ all cs, l.label ≠ .fault .unterminatedString := by
    intro l hl hlabel
    obtain ⟨f, hf, hcause⟩ := exists_fault_of_label hl hlabel
    exact h f hf hcause
  -- The end of the line is counted, and all that follows is further down by the lines before it.
  have hmore : ofLexemes (ofClusters cs).line (⟨.trivia, [n]⟩ :: all more) =
      (ofClusters more).shift (ofClusters cs).eof.line := by
    have hline : (ofClusters cs).line + (⟨.trivia, [n]⟩ : Lexeme).newlines =
        1 + (ofClusters cs).eof.line := by
      simp [Lexeme.newlines, hn, eof, Token.eof, Nat.add_comm]
    rw [ofLexemes, hline, ofLexemes_add]
    rfl
  have hjoined : ofClusters (cs ++ n :: more) =
      ⟨(ofClusters cs).tokens ++ ((ofClusters more).shift (ofClusters cs).eof.line).tokens,
        (ofClusters cs).faults ++ ((ofClusters more).shift (ofClusters cs).eof.line).faults,
        ((ofClusters more).shift (ofClusters cs).eof.line).line⟩ := by
    rw [← hmore, ofClusters, Lexeme.all_append_newline hclosed hn, ofLexemes_append]
    rfl
  rw [hjoined, ← allTokens_shift]
  exact ⟨List.append_assoc _ _ _, rfl⟩

end Scan

/-- The scan of two texts with a line feed between them is that of the first, if it ends in no open
string, and behind it that of the second on later lines. -/
theorem scan_append_lineFeed (first second : String)
    (h : ∀ f ∈ (Scan.ofSource first).faults, f.cause ≠ .unterminatedString) :
    (Scan.ofSource (first ++ "\n" ++ second)).allTokens = (Scan.ofSource first).tokens ++
        (Scan.ofSource second).allTokens.map (Token.shift (Scan.ofSource first).eof.line) ∧
      (Scan.ofSource (first ++ "\n" ++ second)).faults = (Scan.ofSource first).faults ++
        (Scan.ofSource second).faults.map (LexicalFault.shift (Scan.ofSource first).eof.line) := by
  obtain ⟨cs, n, hn, hjoined, hfirst⟩ := exists_seam first.toList second.toList
  -- The clusters before the seam are those of the first text, but for a carriage return.
  have hscan : Scan.ofSource first = Scan.ofClusters cs := by
    rcases hfirst with hfirst | hfirst
    · rw [Scan.ofSource, hfirst]
    · rw [Scan.ofSource, hfirst]
      exact Scan.ofLexemes_append_blank rfl 1 cs
  have htext : (first ++ "\n" ++ second).toList = first.toList ++ '\n' :: second.toList := by
    simp
  rw [hscan] at h ⊢
  have hclusters : Scan.ofSource (first ++ "\n" ++ second) =
      Scan.ofClusters (cs ++ n :: Cluster.segment second.toList) := by
    rw [Scan.ofSource, htext, hjoined]
  rw [hclusters]
  exact Scan.ofClusters_append_newline h hn (Cluster.segment second.toList)

/-- A comment that ends in a carriage return, and behind it a string without an end. -/
theorem scan_append_lineFeed_return :
    (∀ f ∈ (Scan.ofSource "!// \r").faults, f.cause ≠ .unterminatedString) ∧
      (Scan.ofSource ("!// \r" ++ "\n" ++ "=\"")).allTokens = (Scan.ofSource "!// \r").tokens ++
        (Scan.ofSource "=\"").allTokens.map (Token.shift (Scan.ofSource "!// \r").eof.line) ∧
      (Scan.ofSource ("!// \r" ++ "\n" ++ "=\"")).faults = (Scan.ofSource "!// \r").faults ++
        (Scan.ofSource "=\"").faults.map
          (LexicalFault.shift (Scan.ofSource "!// \r").eof.line) := by
  -- The comment takes in the carriage return at the end of the first text.
  have hall : Lexeme.all (Cluster.segment "!// \r".toList) =
      [⟨.token .bang none, [['!']]⟩, ⟨.trivia, [['/'], ['/'], [' '], ['\r']]⟩] := by
    have hbang : Lexeme.Taken ⟨.token .bang none, [['!']]⟩ [['/'], ['/'], [' '], ['\r']] :=
      .short rfl (Lexeme.endsRun_cons.mpr rfl)
    have hcomment : Lexeme.Taken ⟨.trivia, [['/'], ['/'], [' '], ['\r']]⟩ [] :=
      .comment (by decide) (Lexeme.endsRun_nil _)
    have hsegment : Cluster.segment "!// \r".toList = [['!'], ['/'], ['/'], [' '], ['\r']] := by
      decide
    have hrest := hcomment.all_eq
    rw [List.append_nil, Lexeme.all] at hrest
    rw [hsegment, ← hrest]
    exact hbang.all_eq
  have hfaults : (Scan.ofSource "!// \r").faults = [] := by
    rw [Scan.ofSource, Scan.ofClusters, hall]
    rfl
  have h : ∀ f ∈ (Scan.ofSource "!// \r").faults, f.cause ≠ .unterminatedString := by
    simp [hfaults]
  exact ⟨h, scan_append_lineFeed "!// \r" "=\"" h⟩

end LoxCalc
