import LoxCalc.Command.Interpret
import LoxCalc.Proofs.Lexeme.Printable
import LoxCalc.Proofs.Parser.EarliestFault
import LoxCalc.Proofs.Scan.Lines
import LoxCalc.Proofs.Session.Outcome
import Mathlib

/-!
# Reports as lines of the sink

A journal with a working sink writes the message of every report and a line feed behind it. The
lines of what it wrote are the messages, one by one, exactly as long as no message holds a line feed
(`one_line_per_report_iff`).

A message is made of fixed words, a line number and, for a fault of grammar, the lexeme of the token
it is at. Every lexeme is printable ASCII, save that of a string (`Scan.isPrintable_of_mem_tokens`).
A string is written into the message as it stands in the source, and so are the line feeds in it: a
string over several lines where a closing parenthesis is missing gives a report of several lines
(`report_over_lines`).
-/

namespace LoxCalc

/-- A fault of grammar is at a token of the list, or at the end. -/
theorem Parser.token_mem_of_parse_eq_error {ts : List Token} {f : GrammarFault}
    (h : (ofTokens ts).parse.1 = .error f) : f.token ∈ ts ∨ f.token.kind = .eof := by
  obtain ⟨word, -, hbegins⟩ := stuck_of_parse_eq_error (kind_eof_ofTokens ts) h
  have hmem : f.token ∈ (ofTokens ts).pending ++ [(ofTokens ts).eof] :=
    hbegins.subset (List.mem_append_right _ (List.mem_singleton_self _))
  rcases List.mem_append.mp hmem with hpending | heof
  · exact .inl ((List.takeWhile_sublist _).subset hpending)
  · rw [List.mem_singleton.mp heof]
    exact .inr (kind_eof_ofTokens ts)

/-! ## Messages -/

/-- The line number of a message is printable, as all of its beginning is. -/
theorem isPrintable_errorOnLine (line : Nat) :
    ∀ c ∈ (errorOnLine line).toList, isPrintable c = true := by
  have hopen : ∀ c ∈ "[line ".toList, isPrintable c = true := List.all_eq_true.mp (by decide)
  have hclose : ∀ c ∈ "] Error".toList, isPrintable c = true := List.all_eq_true.mp (by decide)
  have hdigits : ∀ c ∈ line.repr.toList, isPrintable c = true := by
    intro c hc
    rw [Nat.toList_repr] at hc
    apply Lexeme.isPrintable_of_isAlphanum
    have hdigit := Nat.isDigit_of_mem_toDigits (by decide) (by decide) hc
    simp [Char.isAlphanum, hdigit]
  rw [errorOnLine, String.toList_append, String.toList_append, List.forall_mem_append,
    List.forall_mem_append]
  exact ⟨⟨hopen, hdigits⟩, hclose⟩

/-- What a message says between the line and the cause. -/
def Report.place : Report → String
  | .grammar f => if f.token.kind = .eof then " at end" else " at '" ++ f.token.lexeme ++ "'"
  | .lexical _ | .runtime _ => ""

/-- The wording of the cause of a report. -/
def Report.wording : Report → String
  | .lexical f => f.cause.message
  | .grammar f => f.cause.message
  | .runtime f => f.cause.message

/-- Every message is a line number, a place and the wording of a cause. -/
theorem Report.message_eq (r : Report) :
    r.message = errorOnLine r.line ++ r.place ++ ": " ++ r.wording := by
  cases r with
  | lexical f => simp [message, LexicalFault.message, place, line, wording]
  | grammar f => rfl
  | runtime f => simp [message, RuntimeFault.message, place, line, wording]

/-- The wording of a cause is printable, and ends with a full stop. -/
theorem Report.wording_printable (r : Report) :
    (∀ c ∈ r.wording.toList, isPrintable c = true) ∧ r.wording.toList.getLast? = some '.' := by
  rw [← List.all_eq_true]
  cases r with
  | lexical f =>
    rw [wording]
    cases f.cause <;> decide
  | grammar f =>
    rw [wording]
    cases f.cause <;> decide
  | runtime f =>
    rw [wording]
    cases f.cause <;> decide

/-- A message ends with a full stop. -/
theorem Report.getLast?_message (r : Report) : r.message.toList.getLast? = some '.' := by
  rw [r.message_eq, String.toList_append, List.getLast?_append, r.wording_printable.2]
  rfl

/-- What is not printable in a message is in its place. -/
theorem Report.mem_message_iff (r : Report) {c : Char} (hc : isPrintable c = false) :
    c ∈ r.message.toList ↔ c ∈ r.place.toList := by
  have hline := not_mem_of_isPrintable (isPrintable_errorOnLine r.line) hc
  have hcolon : c ∉ ": ".toList := not_mem_of_isPrintable (List.all_eq_true.mp (by decide)) hc
  have hwording := not_mem_of_isPrintable r.wording_printable.1 hc
  simp only [r.message_eq, String.toList_append, List.mem_append, hline, hcolon, hwording, false_or,
    or_false]

/-- The report is a fault of grammar at a string that holds the character. -/
def Report.AtStringWith (c : Char) (r : Report) : Prop :=
  ∃ f, r = .grammar f ∧ f.token.kind = .string ∧ c ∈ f.token.lexeme.toList

/-- The report is one that scanning, parsing or evaluating some program makes. -/
def Report.IsOfProgram (r : Report) : Prop :=
  ∃ source, r ∈ Program.staticReports source ++ Program.runtimeReports source

/-- A fault of grammar is what the parser found. -/
theorem Program.parse_of_grammar_mem {source : String} {f : GrammarFault}
    (h : .grammar f ∈ staticReports source ++ runtimeReports source) :
    (Parser.ofTokens (Scan.ofSource source).allTokens).parse.1 = .error f := by
  -- A report about the grammar comes from the parser; lexical ones and those of evaluation are of
  -- other kinds.
  rcases List.mem_append.mp h with hstatic | hruntime
  · rcases List.mem_append.mp hstatic with hlexical | hgrammar
    · obtain ⟨f', -, heq⟩ := List.mem_map.mp hlexical
      cases heq
    · split at hgrammar
      · cases hgrammar
      · next f' hparse =>
        cases List.mem_singleton.mp hgrammar
        exact hparse
  · obtain ⟨runtime, hreports, -⟩ := exists_runtimeReports_eq source
    rw [hreports] at hruntime
    obtain ⟨f', -, heq⟩ := List.mem_map.mp hruntime
    cases heq

/-- A fault of grammar of a program is at one of its tokens, or at its end. -/
theorem Report.IsOfProgram.token_cases {f : GrammarFault} (h : (grammar f).IsOfProgram) :
    (∃ source, f.token ∈ (Scan.ofSource source).tokens) ∨ f.token.kind = .eof := by
  obtain ⟨source, hmem⟩ := h
  have hparse := Program.parse_of_grammar_mem hmem
  rcases Parser.token_mem_of_parse_eq_error hparse with htoken | heof
  · rcases List.mem_append.mp htoken with htoken | hend
    · exact .inl ⟨source, htoken⟩
    · rw [List.mem_singleton.mp hend]
      exact .inr rfl
  · exact .inr heof

/-- What is not printable in a message of a program is in the string that the report is at. -/
theorem Report.IsOfProgram.mem_message_iff {r : Report} (h : r.IsOfProgram) {c : Char}
    (hc : isPrintable c = false) : c ∈ r.message.toList ↔ r.AtStringWith c := by
  rw [Report.mem_message_iff r hc]
  constructor
  · intro hmem
    cases r with
    | lexical f => simp [place] at hmem
    | runtime f => simp [place] at hmem
    | grammar f =>
      have hend : c ∉ " at end".toList :=
        not_mem_of_isPrintable (List.all_eq_true.mp (by decide)) hc
      have hopen : c ∉ " at '".toList := not_mem_of_isPrintable (List.all_eq_true.mp (by decide)) hc
      have hclose : c ∉ "'".toList := not_mem_of_isPrintable (List.all_eq_true.mp (by decide)) hc
      rw [place] at hmem
      split at hmem
      · exact absurd hmem hend
      · next hne =>
        simp only [String.toList_append, List.mem_append, hopen, hclose, false_or, or_false] at hmem
        refine ⟨f, rfl, ?_, hmem⟩
        -- Any other token is printable.
        by_contra hkind
        rcases h.token_cases with ⟨source, htoken⟩ | heof
        · have hprintable := Scan.isPrintable_of_mem_tokens htoken hkind
          exact not_mem_of_isPrintable hprintable hc hmem
        · exact hne heof
  · rintro ⟨f, rfl, hkind, hmem⟩
    simp [place, hkind, hmem]

/-! ## Sessions with a working sink -/

namespace Journal

/-- The journal after programs, each run or with its tree shown, in a session with a working
sink. -/
def afterPrograms (programs : List (Bool × String)) : Journal :=
  programs.foldl (fun j p => (Command.Interpret.answer p.1 j p.2).2) (new (.buffer ""))

/-- The sink holds the messages of all reports, which are reports of programs. -/
structure Copied (j : Journal) : Prop where
  /-- Each message was written with a line feed. -/
  sink : j.sink = .buffer (Text.unlines (j.reports.map Report.message))
  /-- The reports come from programs. -/
  reports : ∀ r ∈ j.reports, r.IsOfProgram

/-- Reports of programs keep the sink a copy. -/
theorem Copied.addAll {j : Journal} (h : j.Copied) {rs : List Report}
    (hrs : ∀ r ∈ rs, r.IsOfProgram) : (j.addAll rs).Copied where
  sink := by
    rw [addAll_eq]
    dsimp only
    rw [h.sink, Sink.foldl_writeLine, List.map_append, Text.unlines_append]
  reports := by
    rw [reports_addAll, List.forall_mem_append]
    exact ⟨h.reports, hrs⟩

/-- What gets into a journal is what there was before the mask. -/
theorem mask_subset (j : Journal) (rs : List Report) : j.mask rs ⊆ rs := by
  unfold mask
  split
  · exact List.filter_sublist.subset
  · exact List.Subset.refl rs

/-- Answering a program copies its reports. -/
theorem Copied.answer {j : Journal} (h : j.Copied) (tree : Bool) (source : String) :
    (Command.Interpret.answer tree j source).2.Copied := by
  rw [Command.Interpret.answer]
  cases tree with
  | true =>
    simp only [if_true, showTree_eq]
    refine h.addAll fun r hr => ⟨source, ?_⟩
    exact List.mem_append_left _ (j.mask_subset _ hr)
  | false =>
    simp only [Bool.false_eq_true, if_false, run_eq]
    exact h.addAll fun r hr => ⟨source, j.mask_subset _ hr⟩

/-- Answering any programs keeps the sink a copy of the reports. -/
theorem copied_afterPrograms (programs : List (Bool × String)) :
    (afterPrograms programs).Copied := by
  suffices hfold : ∀ j : Journal, j.Copied →
      (programs.foldl (fun j p => (Command.Interpret.answer p.1 j p.2).2) j).Copied from
    hfold _ ⟨rfl, by simp⟩
  induction programs with
  | nil => exact fun _ h => h
  | cons p programs ih => exact fun j h => ih _ (h.answer p.1 p.2)

end Journal

/-- After any programs in a session with a working sink, a message holds a character that is not
printable only by a string that the report is at. The lines of the sink are the messages of the
reports, in order, if and only if no report is at a string with a line feed in it; otherwise their
number differs already. -/
theorem one_line_per_report_iff (programs : List (Bool × String)) :
    (∀ r ∈ (Journal.afterPrograms programs).reports, ∀ c, isPrintable c = false →
      (c ∈ r.message.toList ↔ r.AtStringWith c)) ∧
    (Text.lines (Journal.afterPrograms programs).sink.written =
        (Journal.afterPrograms programs).reports.map Report.message ↔
      ∀ r ∈ (Journal.afterPrograms programs).reports, ¬r.AtStringWith '\n') ∧
    ((Text.lines (Journal.afterPrograms programs).sink.written).length =
        (Journal.afterPrograms programs).reports.length ↔
      ∀ r ∈ (Journal.afterPrograms programs).reports, ¬r.AtStringWith '\n') := by
  obtain ⟨hsink, hreports⟩ := Journal.copied_afterPrograms programs
  generalize Journal.afterPrograms programs = j at hsink hreports
  have hwritten : j.sink.written = Text.unlines (j.reports.map Report.message) :=
    congrArg Sink.written hsink
  -- Every report ends with a full stop, so that no carriage return stands before the line feed
  -- behind it.
  have hreturn : ∀ text ∈ j.reports.map Report.message, text.toList.getLast? ≠ some '\r' := by
    intro text htext
    obtain ⟨r, -, rfl⟩ := List.mem_map.mp htext
    rw [r.getLast?_message]
    decide
  have hfeeds : (∀ text ∈ j.reports.map Report.message, '\n' ∉ text.toList) ↔
      ∀ r ∈ j.reports, ¬r.AtStringWith '\n' := by
    rw [List.forall_mem_map]
    exact forall₂_congr fun r hr => not_congr ((hreports r hr).mem_message_iff (by decide))
  refine ⟨fun r hr c hc => (hreports r hr).mem_message_iff hc, ?_, ?_⟩
  · rw [hwritten, Text.lines_unlines_eq_iff hreturn, hfeeds]
  · rw [hwritten, ← hfeeds, ← Text.length_lines_unlines_eq_iff, List.length_map]

/-- In `(nil "a` and, on the next line, `b"` a parenthesis is missing at the string: one report, on
two lines. -/
theorem report_over_lines :
    let j := Journal.afterPrograms [(false, "(nil \"a\nb\"")]
    j.reports.map Report.message =
      ["[line 2] Error at '\"a\nb\"': Expect ')' after expression."] ∧
    Text.lines j.sink.written =
      ["[line 2] Error at '\"a", "b\"': Expect ')' after expression."] := by
  cbv

end LoxCalc
