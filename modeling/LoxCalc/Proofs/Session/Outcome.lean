import LoxCalc.Proofs.Parser.Cursor
import LoxCalc.Proofs.Scan.Lossless
import LoxCalc.Proofs.Session.Fresh
import LoxCalc.Proofs.Text.Unlines

/-!
# What comes of a program

A program in a new session ends in one of three ways: it returns a text and reports nothing, it is
rejected with faults of scanning and parsing, or it fails with one fault of evaluation
(`Trichotomy`). A lexical fault leaves a hole in the tokens, over which the parser may find a tree
or one more fault; neither is evaluated, so that a fault of evaluation stands alone
(`exists_runtimeReports_eq`). The exit code is read off the reports, whatever they are
(`Journal.exitCode?_new_addAll`).
-/

namespace LoxCalc

/-! ## The journal of given reports -/

/-- The static reports are the lexical ones and those about the grammar. -/
theorem Report.isStatic_iff (r : Report) :
    r.isStatic = true ↔ (∃ f, r = .lexical f) ∨ ∃ f, r = .grammar f := by
  cases r <;> simp [isStatic]

/-- The reports that are not static are those of evaluation. -/
theorem Report.isStatic_eq_false_iff (r : Report) : r.isStatic = false ↔ ∃ f, r = .runtime f := by
  cases r <;> simp [isStatic]

/-- A working sink gets the line of every report. -/
theorem Sink.foldl_writeLine (written : String) (rs : List Report) :
    rs.foldl (fun (sink : Sink) r => sink.writeLine r.message) (.buffer written) =
      .buffer (written ++ Text.unlines (rs.map Report.message)) := by
  induction rs generalizing written with
  | nil => simp
  | cons r rs ih =>
    have hline : Text.unlines [r.message] = r.message ++ "\n" := by simp [Text.unlines]
    rw [List.foldl_cons, writeLine, ih, List.map_cons, ← List.singleton_append,
      Text.unlines_append, hline, String.append_assoc, String.append_assoc, String.append_assoc]

namespace Journal

variable (sink : Sink) (rs : List Report)

/-- A new journal has no reports. -/
@[simp]
theorem reports_new : (new sink).reports = [] := rfl

/-- It has those that are added. -/
@[simp]
theorem reports_new_addAll : ((new sink).addAll rs).reports = rs :=
  reports_addAll _ rs

/-- A journal that was new has the lines of its reports on its sink. -/
theorem written_new_addAll :
    ((new (.buffer "")).addAll rs).sink.written = Text.unlines (rs.map Report.message) := by
  rw [addAll_eq]
  simp only [new, Sink.foldl_writeLine, Sink.written, String.empty_append]

/-- There are two exit codes of reports. -/
theorem exitCode?_cases (j : Journal) :
    j.exitCode? = none ∨ j.exitCode? = some 65 ∨ j.exitCode? = some 70 := by
  unfold exitCode? dataError softwareError
  cases j.hadError <;> cases j.hadRuntimeError <;> simp

/-- The exit code of a journal that was new, by the reports that were added. -/
theorem exitCode?_new_addAll :
    ((new sink).addAll rs).exitCode? =
      if rs.any Report.isStatic then some 65
      else if rs.any (!·.isStatic) then some 70
      else none := by
  rw [addAll_eq]
  rfl

/-- Without reports there is no exit code. -/
theorem exitCode?_eq_none_iff : ((new sink).addAll rs).exitCode? = none ↔ rs = [] := by
  rw [exitCode?_new_addAll]
  cases rs with
  | nil => simp
  | cons r rs =>
    -- Every report sets one of the two flags.
    cases hr : r.isStatic with
    | true => simp [hr]
    | false =>
      have hany : (r :: rs).any (!·.isStatic) = true := by simp [hr]
      rw [if_pos hany]
      split <;> simp

/-- A static report makes it 65. -/
theorem exitCode?_eq_data_iff :
    ((new sink).addAll rs).exitCode? = some 65 ↔ ∃ r ∈ rs, r.isStatic = true := by
  rw [exitCode?_new_addAll, ← List.any_eq_true]
  cases rs.any Report.isStatic <;> simp

/-- Reports of evaluation alone make it 70. -/
theorem exitCode?_eq_software_iff :
    ((new sink).addAll rs).exitCode? = some 70 ↔ rs ≠ [] ∧ ∀ r ∈ rs, r.isStatic = false := by
  rw [exitCode?_new_addAll]
  cases rs with
  | nil => simp
  | cons r rs => cases hr : r.isStatic <;> simp [hr]

end Journal

namespace Program

/-! ## The reports of a program -/

/-- A new journal parses a program to its tree. -/
theorem parse_new (sink : Sink) (source : String) :
    ((Journal.new sink).parse source).1 = tree? source := by
  rw [Journal.parse_eq]
  rfl

/-- It runs a program to its value and adds all its reports. -/
theorem run_new (sink : Sink) (source : String) : (Journal.new sink).run source =
    (value? source,
      (Journal.new sink).addAll (staticReports source ++ runtimeReports source)) :=
  Journal.run_eq _ source

/-- It shows the tree of a program and adds the static reports. -/
theorem showTree_new (sink : Sink) (source : String) : (Journal.new sink).showTree source =
    ((tree? source).map Expr.render, (Journal.new sink).addAll (staticReports source)) :=
  Journal.showTree_eq _ source

/-- Scanning and parsing report nothing exactly if the program has a tree. -/
theorem staticReports_eq_nil_iff (source : String) :
    staticReports source = [] ↔ (tree? source).isSome = true := by
  unfold staticReports tree?
  cases (Parser.ofTokens (Scan.ofSource source).allTokens).parse.1 with
  | ok e => cases (Scan.ofSource source).faults <;> simp
  | error f => simp

/-- The reports of scanning and parsing are lexical faults and then at most one of grammar. -/
theorem exists_staticReports_eq (source : String) :
    ∃ (lexical : List LexicalFault) (grammar : Option GrammarFault),
      staticReports source = lexical.map .lexical ++ grammar.toList.map .grammar := by
  unfold staticReports
  cases (Parser.ofTokens (Scan.ofSource source).allTokens).parse.1 with
  | ok e => exact ⟨(Scan.ofSource source).faults, none, rfl⟩
  | error f => exact ⟨(Scan.ofSource source).faults, some f, rfl⟩

/-- The parser of a program is to consume the tokens of its source. -/
theorem pending_allTokens (source : String) :
    (Parser.ofTokens (Scan.ofSource source).allTokens).pending = (Scan.ofSource source).tokens := by
  obtain ⟨-, -, -, -, hkind⟩ := (Lossless.ofSource source).eof
  exact Parser.pending_ofTokens_append hkind (Scan.ofSource source).line

/-- The tree of a program is what its parser returns. -/
theorem parse_of_tree? {source : String} {e : Expr} (h : tree? source = some e) :
    (Parser.ofTokens (Scan.ofSource source).allTokens).parse.1 = .ok e := by
  unfold tree? at h
  split at h
  · next e' hparse =>
    split at h
    · rw [hparse, Option.some.inj h]
    · cases h
  · cases h

/-- A program whose tokens are an expression has its tree, if scanning reports nothing and there is
room for its nesting. -/
theorem tree?_of_derives {source : String} {e : Expr} (hfaults : (Scan.ofSource source).faults = [])
    (hd : Grammar.Derives Grammar.expression (Scan.ofSource source).tokens e)
    (hnesting : e.nesting ≤ maxNesting) : tree? source = some e := by
  have hpending := pending_allTokens source
  obtain ⟨hok, -⟩ := (Parser.parse_eq_ok_iff (Parser.kind_eof_ofTokens _)).mpr
    ⟨_, hpending.trans (List.append_nil _).symm, hd, hnesting, Grammar.stops_nil _⟩
  rw [tree?, hok, hfaults]
  rfl

/-- Showing a program that has a tree returns the text of the tree. -/
theorem showTree_of_tree? {source : String} {e : Expr} (h : tree? source = some e) (sink : Sink) :
    (Journal.new sink).showTree source = (some e.render, .new sink) := by
  have hstatic : staticReports source = [] := by
    rw [staticReports_eq_nil_iff, h]
    rfl
  rw [showTree_new, h, hstatic]
  rfl

/-- Running a program that has a tree returns the text of the tree's value, or reports its fault. -/
theorem run_of_tree? {source : String} {e : Expr} (h : tree? source = some e) (sink : Sink) :
    (∀ v, e.eval = .ok v → (Journal.new sink).run source = (some v.text, .new sink)) ∧
      ∀ f, e.eval = .error f →
        (Journal.new sink).run source = (none, (Journal.new sink).add (.runtime f)) := by
  -- A tree is there only without static reports.
  have hstatic : staticReports source = [] := by
    rw [staticReports_eq_nil_iff, h]
    rfl
  constructor
  · intro v hv
    rw [run_new, hstatic, value?, runtimeReports, h, Option.map_some, hv]
    rfl
  · intro f hf
    rw [run_new, hstatic, value?, runtimeReports, h, Option.map_some, hf]
    rfl

/-- The text of a program's value is that of the value of its tree. -/
theorem eval_of_value? {source text : String} (h : value? source = some text) :
    ∃ e v, tree? source = some e ∧ e.eval = .ok v ∧ text = v.text := by
  unfold value? at h
  split at h
  · next v hv =>
    obtain ⟨e, htree, heval⟩ := Option.map_eq_some_iff.mp hv
    exact ⟨e, v, htree, heval, (Option.some.inj h).symm⟩
  · cases h

/-- Evaluation reports at most one fault, and only of a program with a tree. A program has a value
exactly if nothing is reported. -/
theorem exists_runtimeReports_eq (source : String) :
    ∃ runtime : Option RuntimeFault, runtimeReports source = runtime.toList.map .runtime ∧
      (runtime ≠ none → staticReports source = []) ∧
      ((value? source).isSome = true ↔ staticReports source = [] ∧ runtime = none) := by
  rw [staticReports_eq_nil_iff]
  unfold runtimeReports value?
  cases tree? source with
  | none => exact ⟨none, rfl, by simp, by simp⟩
  | some e =>
    simp only [Option.map_some]
    cases e.eval with
    | ok v => exact ⟨none, rfl, by simp, by simp⟩
    | error f => exact ⟨some f, rfl, by simp, by simp⟩

/-! ## Three outcomes -/

/-- What can come of a program in a new session: what it returned, and the journal after it. -/
structure Trichotomy (outcome : Option String × Journal) : Prop where
  /-- Lexical faults come first, then at most one of grammar, then at most one of evaluation. -/
  order : ∃ (lexical : List LexicalFault) (grammar : Option GrammarFault)
    (runtime : Option RuntimeFault), outcome.2.reports =
      lexical.map .lexical ++ grammar.toList.map .grammar ++ runtime.toList.map .runtime
  /-- A fault of evaluation is the only report. -/
  alone : ∀ f, .runtime f ∈ outcome.2.reports → outcome.2.reports = [.runtime f]
  /-- A text is returned exactly if nothing was reported. -/
  output : outcome.1.isSome = true ↔ outcome.2.reports = []
  /-- No exit code is asked for exactly if nothing was reported. -/
  exit_none : outcome.2.exitCode? = none ↔ outcome.2.reports = []
  /-- The exit code is 65 exactly if there is a lexical fault or one of grammar. -/
  exit_data : outcome.2.exitCode? = some 65 ↔
    ∃ r ∈ outcome.2.reports, (∃ f, r = .lexical f) ∨ ∃ f, r = .grammar f
  /-- The exit code is 70 exactly if a fault of evaluation is the only report. -/
  exit_software : outcome.2.exitCode? = some 70 ↔ ∃ f, outcome.2.reports = [.runtime f]

/-- The reports of scanning and parsing, or else a fault of evaluation, with a text returned if
there is neither, are one of the three outcomes. -/
theorem trichotomy_addAll {source : String} {value : Option String} {runtime : Option RuntimeFault}
    (hruntime : runtime ≠ none → staticReports source = [])
    (hvalue : value.isSome = true ↔ staticReports source = [] ∧ runtime = none) (sink : Sink) :
    Trichotomy (value,
      (Journal.new sink).addAll (staticReports source ++ runtime.toList.map .runtime)) := by
  generalize hrs : staticReports source ++ runtime.toList.map Report.runtime = rs
  have hreports : ((Journal.new sink).addAll rs).reports = rs := Journal.reports_new_addAll sink rs
  -- A program with static reports is not evaluated.
  have halone : ∀ f, .runtime f ∈ rs → rs = [.runtime f] := by
    intro f hf
    rw [← hrs] at hf ⊢
    rcases List.mem_append.mp hf with hf | hf
    · exact absurd (isStatic_of_mem_staticReports hf) Bool.false_ne_true
    · obtain ⟨f', hf', heq⟩ := List.mem_map.mp hf
      obtain rfl := Option.mem_toList.mp hf'
      rw [hruntime (Option.some_ne_none _), ← heq]
      rfl
  constructor
  case order =>
    obtain ⟨lexical, grammar, hstatic⟩ := exists_staticReports_eq source
    exact ⟨lexical, grammar, runtime, by rw [hreports, ← hrs, hstatic]⟩
  case alone => rwa [hreports]
  case output =>
    rw [hreports, hvalue, ← hrs]
    cases runtime <;> simp
  case exit_none => rw [hreports, Journal.exitCode?_eq_none_iff]
  case exit_data =>
    simp only [hreports, Journal.exitCode?_eq_data_iff, Report.isStatic_iff]
  case exit_software =>
    rw [hreports, Journal.exitCode?_eq_software_iff]
    constructor
    · rintro ⟨hne, hall⟩
      obtain ⟨r, hr⟩ := List.exists_mem_of_ne_nil rs hne
      obtain ⟨f, rfl⟩ := r.isStatic_eq_false_iff.mp (hall r hr)
      exact ⟨f, halone f hr⟩
    · rintro ⟨f, rfl⟩
      exact ⟨List.cons_ne_nil _ _, by simp [Report.isStatic]⟩

/-- Running a program in a new session has one of the three outcomes. -/
theorem trichotomy_run (source : String) (sink : Sink) :
    Trichotomy ((Journal.new sink).run source) := by
  obtain ⟨runtime, hreports, hruntime, hvalue⟩ := exists_runtimeReports_eq source
  rw [run_new, hreports]
  exact trichotomy_addAll hruntime hvalue sink

/-- Showing the tree of a program in a new session has one of the first two. -/
theorem trichotomy_showTree (source : String) (sink : Sink) :
    Trichotomy ((Journal.new sink).showTree source) := by
  have hvalue : ((tree? source).map Expr.render).isSome = true ↔
      staticReports source = [] ∧ (none : Option RuntimeFault) = none := by
    rw [staticReports_eq_nil_iff, Option.isSome_map]
    simp
  have h := trichotomy_addAll (fun h => absurd rfl h) hvalue sink
  rwa [Option.toList_none, List.map_nil, List.append_nil, ← showTree_new] at h

end Program

end LoxCalc
