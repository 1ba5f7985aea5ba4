import LoxCalc.Session

/-!
# A step of a session is a fresh run

What a program returns and reports depends on the journal only through its error flag. The reports
of scanning and parsing are the same in every session (`Program.staticReports`), and so is the tree
(`Program.tree?`). A journal that holds an error hides the tree, and with it the value and the fault
of evaluation (`Journal.run_eq`, `Journal.showTree_eq`): every step is what it is in a new session,
masked by the flag (`session_masked`). Since a fault of evaluation leaves the flag as it is, it
changes nothing that comes later (`Session.outputs_congr`).
-/

namespace LoxCalc

namespace Journal

/-! ## Adding reports -/

section Add

variable (j : Journal) (rs : List Report)

/-- Added reports come last, set the flags and are written. -/
theorem addAll_eq :
    j.addAll rs = {
      reports := j.reports ++ rs
      hadError := j.hadError || rs.any Report.isStatic
      hadRuntimeError := j.hadRuntimeError || rs.any (!·.isStatic)
      sink := rs.foldl (fun sink r => sink.writeLine r.message) j.sink } := by
  induction rs generalizing j with
  | nil => simp [addAll]
  | cons r rs ih => simpa [addAll, add, Bool.or_assoc] using ih (j.add r)

/-- Reports are held in the order in which they are made. -/
@[simp]
theorem reports_addAll : (j.addAll rs).reports = j.reports ++ rs := by
  rw [addAll_eq]

/-- The first flag is set once a static report is made. -/
@[simp]
theorem hadError_addAll : (j.addAll rs).hadError = (j.hadError || rs.any Report.isStatic) := by
  rw [addAll_eq]

/-- Reports can be added in two goes. -/
theorem addAll_append (rs' : List Report) :
    j.addAll (rs ++ rs') = (j.addAll rs).addAll rs' :=
  List.foldl_append

end Add

end Journal

/-! ## What a program says without a session -/

namespace Program

/-- What scanning and parsing a program report. -/
def staticReports (source : String) : List Report :=
  (Scan.ofSource source).faults.map .lexical ++
    match (Parser.ofTokens (Scan.ofSource source).allTokens).parse.1 with
    | .ok _ => []
    | .error f => [.grammar f]

/-- The tree of a program, if scanning and parsing it report nothing. -/
def tree? (source : String) : Option Expr :=
  match (Parser.ofTokens (Scan.ofSource source).allTokens).parse.1 with
  | .ok e => if (Scan.ofSource source).faults.isEmpty then some e else none
  | .error _ => none

/-- What evaluating a program reports. -/
def runtimeReports (source : String) : List Report :=
  match (tree? source).map Expr.eval with
  | some (.error f) => [.runtime f]
  | _ => []

/-- The text of the value of a program. -/
def value? (source : String) : Option String :=
  match (tree? source).map Expr.eval with
  | some (.ok v) => some v.text
  | _ => none

/-- The static reports of a program are static. -/
theorem isStatic_of_mem_staticReports {source : String} {r : Report}
    (h : r ∈ staticReports source) : r.isStatic = true := by
  -- Lexical reports come first, and then there may be one about the grammar.
  rcases List.mem_append.mp h with h | h
  · obtain ⟨f, -, rfl⟩ := List.mem_map.mp h
    rfl
  · split at h
    · simp at h
    · rw [List.mem_singleton.mp h]
      rfl

/-- All static reports of a program are kept among static ones. -/
theorem filter_staticReports (source : String) :
    (staticReports source).filter Report.isStatic = staticReports source :=
  List.filter_eq_self.mpr fun _ => isStatic_of_mem_staticReports

/-- A report of evaluation is not. -/
theorem filter_runtimeReports (source : String) :
    (runtimeReports source).filter Report.isStatic = [] := by
  unfold runtimeReports
  split <;> rfl

end Program

namespace Journal

open Program

/-- The reports that get into a journal: none of evaluation if it holds an error. -/
def mask (j : Journal) (rs : List Report) : List Report :=
  if j.hadError then rs.filter Report.isStatic else rs

/-- A mask hides no static report. -/
theorem filter_mask (j : Journal) (rs : List Report) :
    (j.mask rs).filter Report.isStatic = rs.filter Report.isStatic := by
  unfold mask
  split
  · simp
  · rfl

/-- A journal that holds an error hides the tree of a program. -/
theorem parse_eq (j : Journal) (source : String) :
    j.parse source =
      (if j.hadError then none else tree? source, j.addAll (staticReports source)) := by
  simp only [parse, tree?, staticReports]
  cases (Parser.ofTokens (Scan.ofSource source).allTokens).parse.1 with
  | error f => simp [addAll]
  | ok e =>
    -- Every lexical fault sets the flag, so without errors before it the tree is there just when
    -- there are none.
    have hany : ((Scan.ofSource source).faults.map Report.lexical).any Report.isStatic =
        !(Scan.ofSource source).faults.isEmpty := by
      cases (Scan.ofSource source).faults <;> rfl
    simp only [List.append_nil, hadError_addAll, hany]
    cases j.hadError <;> cases (Scan.ofSource source).faults.isEmpty <;> rfl

/-- Running a program, by its own value and reports. -/
theorem run_eq (j : Journal) (source : String) :
    j.run source = (if j.hadError then none else value? source,
      j.addAll (j.mask (staticReports source ++ runtimeReports source))) := by
  rw [run, parse_eq, mask, List.filter_append, filter_staticReports, filter_runtimeReports]
  cases hflag : j.hadError with
  | true => simp
  | false =>
    -- The tree is there if it is there in a new session, and evaluation adds its fault last.
    simp only [Bool.false_eq_true, if_false, value?, runtimeReports]
    cases tree? source with
    | none => simp
    | some e =>
      simp only [evaluate, Option.map_some, addAll_append]
      cases e.eval <;> rfl

/-- Showing the tree of a program, by its own tree and reports. -/
theorem showTree_eq (j : Journal) (source : String) :
    j.showTree source = (if j.hadError then none else (tree? source).map Expr.render,
      j.addAll (j.mask (staticReports source))) := by
  rw [showTree, parse_eq, mask, filter_staticReports, ite_self]
  cases j.hadError <;> rfl

end Journal

/-- A step on a journal is the same step on a new one, masked by the error flag of the journal. -/
structure Masked (j : Journal) (fresh step : Option String × Journal) : Prop where
  /-- Nothing is returned if the journal held an error. -/
  output : step.1 = if j.hadError then none else fresh.1
  /-- The reports of the fresh step come behind those that were there, without the ones of
  evaluation if the journal held an error. -/
  reports : step.2.reports = j.reports ++ j.mask fresh.2.reports
  /-- The error flag is set if it was, or by a report that was added. -/
  hadError : step.2.hadError = (j.hadError || (j.mask fresh.2.reports).any Report.isStatic)
  /-- So is the flag of errors in evaluation. -/
  hadRuntimeError :
    step.2.hadRuntimeError = (j.hadRuntimeError || (j.mask fresh.2.reports).any (!·.isStatic))
  /-- The reports that were added are written to the sink. -/
  sink : step.2.sink =
    (j.mask fresh.2.reports).foldl (fun sink r => sink.writeLine r.message) j.sink

/-- What returns a value and adds reports, both masked, is masked. -/
theorem Masked.of_eq {step : Journal → Option String × Journal} {value : Option String}
    {rs : List Report}
    (h : ∀ j, step j = (if j.hadError then none else value, j.addAll (j.mask rs)))
    (j : Journal) (sink : Sink) : Masked j (step (.new sink)) (step j) := by
  have hfresh : step (.new sink) = (value, (Journal.new sink).addAll rs) := h (.new sink)
  have hreports : (step (.new sink)).2.reports = rs := by
    rw [hfresh, Journal.reports_addAll]
    rfl
  constructor
  case output => rw [h j, hfresh]
  all_goals rw [h j, hreports, Journal.addAll_eq]

/-! ## Sessions -/

namespace Session

open Program

/-- What a step shows: the text it returns and the reports it adds. -/
def shown (j : Journal) (s : Step) : Option String × List Report :=
  ((step j s).1, (step j s).2.reports.drop j.reports.length)

/-- What steps show, one after another. -/
def outputs (j : Journal) : List Step → List (Option String × List Report)
  | [] => []
  | s :: later => shown j s :: outputs (step j s).2 later

/-- What a run shows depends on the program and, if there was an error before, on no value of it. -/
theorem shown_run (j : Journal) (source : String) :
    shown j (.run source) = (if j.hadError then none else value? source,
      j.mask (staticReports source ++ runtimeReports source)) := by
  simp [shown, step, Journal.run_eq]

/-- What a tree shows depends on the program, and its reports do not depend on what was before. -/
theorem shown_showTree (j : Journal) (source : String) :
    shown j (.showTree source) = (if j.hadError then none else (tree? source).map Expr.render,
      staticReports source) := by
  simp [shown, step, Journal.showTree_eq, Journal.mask, filter_staticReports]

/-- Two journals with the same error flag show the same, and have the same flag again. Only a dump
shows more of a journal. -/
theorem shown_congr {j j' : Journal} (h : j.hadError = j'.hadError) {s : Step} (hs : s ≠ .dump) :
    shown j s = shown j' s ∧ (step j s).2.hadError = (step j' s).2.hadError := by
  cases s with
  | run source => simp [shown_run, step, Journal.run_eq, Journal.mask, h]
  | showTree source => simp [shown_showTree, step, Journal.showTree_eq, Journal.mask, h]
  | reset => simp [shown, step, Journal.reset, Journal.new]
  | report r => simp [shown, step, Journal.add, h]
  | dump => exact absurd rfl hs

/-- The error flag of a journal decides what all later steps show. -/
theorem outputs_congr {j j' : Journal} (h : j.hadError = j'.hadError) {steps : List Step}
    (hsteps : .dump ∉ steps) : outputs j steps = outputs j' steps := by
  induction steps generalizing j j' with
  | nil => rfl
  | cons s later ih =>
    obtain ⟨hs, hlater⟩ := List.ne_and_not_mem_of_not_mem_cons hsteps
    obtain ⟨hshown, hflag⟩ := shown_congr h hs.symm
    rw [outputs, outputs, hshown, ih hflag hlater]

end Session

/-- Every step of a session is the step of a new session masked by the error flag, whatever the
journal. Showing a tree reports what running reports before evaluation. Reports of evaluation change
nothing that any later steps show. -/
theorem session_masked (j : Journal) (source : String) (sink : Sink) :
    Masked j ((Journal.new sink).run source) (j.run source) ∧
    Masked j ((Journal.new sink).showTree source) (j.showTree source) ∧
    (∀ r ∈ ((Journal.new sink).showTree source).2.reports, r.isStatic = true) ∧
    (Session.shown j (.showTree source)).2 =
      (Session.shown j (.run source)).2.filter Report.isStatic ∧
    ∀ rs : List Report, (∀ r ∈ rs, r.isStatic = false) →
      ∀ steps, .dump ∉ steps → Session.outputs (j.addAll rs) steps = Session.outputs j steps := by
  refine ⟨?_, ?_, ?_, ?_, ?_⟩
  · exact Masked.of_eq (fun j => j.run_eq source) j sink
  · exact Masked.of_eq (fun j => j.showTree_eq source) j sink
  · intro r hr
    rw [Journal.showTree_eq, Journal.reports_addAll] at hr
    exact Program.isStatic_of_mem_staticReports hr
  · rw [Session.shown_showTree, Session.shown_run, Journal.filter_mask, List.filter_append,
      Program.filter_staticReports, Program.filter_runtimeReports, List.append_nil]
  · -- Reports of evaluation leave the first flag alone, and nothing else of the journal is looked
    -- at.
    intro rs hrs steps hsteps
    have hnone : rs.any Report.isStatic = false := by simpa using hrs
    refine Session.outputs_congr ?_ hsteps
    rw [Journal.hadError_addAll, hnone, Bool.or_false]

end LoxCalc
