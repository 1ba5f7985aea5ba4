import LoxCalc.Proofs.Parser.Relocation
import LoxCalc.Proofs.Scan.Join
import LoxCalc.Proofs.Session.Outcome
import Mathlib

/-!
# Programs that stand further down

Blank lines and comments in front of a program move it down: the scan is the same on later lines
(`Scan.ofSource_append`), and since neither the parser nor the evaluator looks at lines, the program
returns the same and reports the same on later lines (`session_moved_down`).
-/

namespace LoxCalc

open Unicode (Cluster)

namespace Lexeme

/-- A string that is open at the end of a text is open still when the line ends behind it. -/
theorem closed_of_append_newline {cs : List Cluster} {n : Cluster} (hn : isNewline n = true)
    (h : ∀ l ∈ all (cs ++ [n]), l.label ≠ .fault .unterminatedString) :
    ∀ l ∈ all cs, l.label ≠ .fault .unterminatedString := by
  fun_induction all cs with
  | case1 => simp
  | case2 c rest ih =>
    rw [← next_append c rest] at h
    rcases (taken_next c rest).append_skipped ((mem_skipped_iff n).mpr (.inr hn)) [] with
      htaken | ⟨hrest, hopen, hlabel⟩
    · rw [List.append_assoc, htaken.all_eq, List.forall_mem_cons] at h
      exact List.forall_mem_cons.mpr ⟨h.1, ih h.2⟩
    · -- The lexeme takes the end of the line in, and is all that there is.
      have hall := hopen.all_eq
      rw [List.append_nil] at hall
      rw [hrest, List.append_nil, hall, List.forall_mem_cons] at h
      rcases hlabel with hlabel | ⟨-, hblank⟩
      · exact absurd hlabel h.1
      · rw [hn] at hblank
        cases hblank

end Lexeme

namespace Scan

/-- The last line of a source, which is one more than its line feeds. -/
theorem line_ofSource (source : String) :
    (ofSource source).line = 1 + source.toList.count '\n' := by
  have hcount := (lineFeedsApart_segment source.toList).lineEnds_eq_count (List.append_nil _).symm
  rw [Lexeme.chars_eq, Lexeme.flatten_body_all, Cluster.flatten_segment] at hcount
  rw [ofSource, ofClusters, ofLexemes_eq, hcount]

/-- Without faults no string is open. -/
theorem closed_of_faults_eq_nil {cs : List Cluster} (h : (ofClusters cs).faults = []) :
    ∀ l ∈ Lexeme.all cs, l.label ≠ .fault .unterminatedString := by
  intro l hl hlabel
  obtain ⟨f, hf, -⟩ := exists_fault_of_label hl hlabel
  rw [h] at hf
  cases hf

/-- Lines without tokens and faults move down the scan of what follows them. -/
theorem ofSource_append {lead : String} (hend : lead.toList.getLast? = some '\n')
    (htokens : (ofSource lead).tokens = []) (hfaults : (ofSource lead).faults = [])
    (source : String) :
    ofSource (lead ++ source) = (ofSource source).shift (lead.toList.count '\n') := by
  obtain ⟨front, hfront⟩ := List.getLast?_eq_some_iff.mp hend
  have hline := line_ofSource lead
  -- The clusters of the lead end in a newline, behind which those of the source come.
  obtain ⟨cs, n, hn, hlead, -⟩ := exists_seam front []
  have hjoined : Cluster.segment (lead ++ source).toList =
      cs ++ n :: Cluster.segment source.toList := by
    rw [String.toList_append, hfront, List.append_assoc, List.singleton_append,
      Cluster.segment_append_lineFeed, hlead, List.append_assoc]
    rfl
  rw [← hfront] at hlead
  have hclosed : ∀ l ∈ Lexeme.all cs, l.label ≠ .fault .unterminatedString := by
    apply Lexeme.closed_of_append_newline hn
    apply closed_of_faults_eq_nil
    rw [← hfaults, ofSource, hlead]
    rfl
  have hall : Lexeme.all (cs ++ n :: Cluster.segment source.toList) =
      Lexeme.all (cs ++ [n]) ++ Lexeme.all (Cluster.segment source.toList) := by
    rw [Lexeme.all_append_newline hclosed hn, Lexeme.all_append_newline hclosed hn, Lexeme.all,
      List.append_assoc]
    rfl
  have hofLead : ofLexemes 1 (Lexeme.all (cs ++ [n])) = ofSource lead := by
    rw [ofSource, hlead]
    rfl
  rw [ofSource, ofClusters, hjoined, hall, ofLexemes_append, hofLead, htokens, hfaults, hline,
    ofLexemes_add]
  rfl

end Scan

/-! ## Programs -/

/-- The report some lines further down. -/
def Report.shift (lines : Nat) : Report → Report
  | .lexical f => .lexical (f.shift lines)
  | .grammar f => .grammar (f.relocate (· + lines))
  | .runtime f => .runtime (f.relocate (· + lines))

namespace Program

section Moved

variable {source moved : String} {lines : Nat}
  (h : Scan.ofSource moved = (Scan.ofSource source).shift lines)
include h

/-- The parser finds the same tree or fault, further down. -/
theorem parse_moved : (Parser.ofTokens (Scan.ofSource moved).allTokens).parse.1 =
    ((Parser.ofTokens (Scan.ofSource source).allTokens).parse.1.map
      (Expr.relocate (· + lines))).mapError (GrammarFault.relocate (· + lines)) := by
  have hshift : Token.shift lines = Token.relocate (· + lines) := rfl
  have hend : (Scan.ofSource source).eof ∈ (Scan.ofSource source).allTokens :=
    List.mem_append_right _ (List.mem_singleton_self _)
  rw [h, Scan.allTokens_shift, hshift, Parser.ofTokens_relocate _ hend rfl]
  exact Parser.parse_relocate _ (Parser.kind_eof_ofTokens _)

/-- The static reports are those of the program, further down. -/
theorem staticReports_moved : staticReports moved = (staticReports source).map (.shift lines) := by
  have hfaults : (Scan.ofSource moved).faults =
      (Scan.ofSource source).faults.map (LexicalFault.shift lines) := by
    rw [h]
    rfl
  have hlexical : (Scan.ofSource moved).faults.map Report.lexical =
      ((Scan.ofSource source).faults.map Report.lexical).map (.shift lines) := by
    rw [hfaults, List.map_map, List.map_map]
    rfl
  unfold staticReports
  rw [parse_moved h, hlexical, List.map_append]
  cases (Parser.ofTokens (Scan.ofSource source).allTokens).parse.1 <;> rfl

/-- The tree is that of the program, further down. -/
theorem tree?_moved : tree? moved = (tree? source).map (Expr.relocate (· + lines)) := by
  have hempty : (Scan.ofSource moved).faults.isEmpty = (Scan.ofSource source).faults.isEmpty := by
    rw [h]
    exact List.isEmpty_map
  -- A tree is there if the scan has no faults and the parser finds one, which both do not change.
  unfold tree?
  rw [parse_moved h, hempty]
  cases (Parser.ofTokens (Scan.ofSource source).allTokens).parse.1 with
  | error f => rfl
  | ok e => cases (Scan.ofSource source).faults.isEmpty <;> rfl

/-- A tree is shown without its lines. -/
theorem render_moved : (tree? moved).map Expr.render = (tree? source).map Expr.render := by
  rw [tree?_moved h, Option.map_map]
  apply Option.map_congr
  intro e he
  have hsupported := Parser.supported_of_parse (Parser.kind_eof_ofTokens _) (parse_of_tree? he)
  exact hsupported.render_relocate _

/-- Evaluation gives the same text, or the same fault further down. -/
theorem value?_moved : value? moved = value? source ∧
    runtimeReports moved = (runtimeReports source).map (.shift lines) := by
  unfold value? runtimeReports
  rw [tree?_moved h, Option.map_map]
  cases tree? source with
  | none => exact ⟨rfl, rfl⟩
  | some e =>
    simp only [Option.map_some, Function.comp_apply, Expr.eval_relocate]
    cases e.eval with
    | ok v => exact ⟨rfl, rfl⟩
    | error f => exact ⟨rfl, rfl⟩

end Moved

end Program

/-- Lines without tokens and faults in front of a program leave what it returns as it is, when it is
run and when its tree is shown, and move each of its reports down by their number. -/
theorem session_moved_down (lead source : String) (sink : Sink)
    (hend : lead.toList.getLast? = some '\n') (htokens : (Scan.ofSource lead).tokens = [])
    (hfaults : (Scan.ofSource lead).faults = []) :
    ((Journal.new sink).run (lead ++ source)).1 = ((Journal.new sink).run source).1 ∧
    ((Journal.new sink).run (lead ++ source)).2.reports =
      ((Journal.new sink).run source).2.reports.map (.shift (lead.toList.count '\n')) ∧
    ((Journal.new sink).showTree (lead ++ source)).1 = ((Journal.new sink).showTree source).1 ∧
    ((Journal.new sink).showTree (lead ++ source)).2.reports =
      ((Journal.new sink).showTree source).2.reports.map (.shift (lead.toList.count '\n')) := by
  -- From here on the source in front is only a number of lines.
  have hscan := Scan.ofSource_append hend htokens hfaults source
  have hstatic := Program.staticReports_moved hscan
  obtain ⟨hvalue, hruntime⟩ := Program.value?_moved hscan
  simp only [Program.run_new, Program.showTree_new, Journal.reports_new_addAll]
  refine ⟨hvalue, ?_, Program.render_moved hscan, hstatic⟩
  rw [hstatic, hruntime, List.map_append]

/-- A comment with a quote in it and an empty line move the fault of `-nil` from the first line to
the third. -/
theorem session_moved_down_comment :
    "// \"\r\n\n".toList.getLast? = some '\n' ∧ (Scan.ofSource "// \"\r\n\n").tokens = [] ∧
      (Scan.ofSource "// \"\r\n\n").faults = [] ∧
      ((Journal.new .none).run ("// \"\r\n\n" ++ "-nil")).1 = none ∧
      ((Journal.new .none).run ("// \"\r\n\n" ++ "-nil")).2.reports =
        [.runtime ⟨.operandMustBeNumber, ⟨.minus, "-", none, 3⟩⟩] := by
  have hscan : Scan.ofSource "// \"\r\n\n" = ⟨[], [], 3⟩ := by cbv
  have hrun : ((Journal.new .none).run "-nil").1 = none ∧
      ((Journal.new .none).run "-nil").2.reports =
        [.runtime ⟨.operandMustBeNumber, ⟨.minus, "-", none, 1⟩⟩] := by cbv
  have hend : "// \"\r\n\n".toList.getLast? = some '\n' := by decide
  have htokens : (Scan.ofSource "// \"\r\n\n").tokens = [] := by rw [hscan]
  have hfaults : (Scan.ofSource "// \"\r\n\n").faults = [] := by rw [hscan]
  obtain ⟨houtput, hreports, -⟩ :=
    session_moved_down "// \"\r\n\n" "-nil" .none hend htokens hfaults
  rw [hrun.1] at houtput
  rw [hrun.2] at hreports
  exact ⟨hend, htokens, hfaults, houtput, hreports⟩

end LoxCalc
