import LoxCalc.Proofs.Session.Outcome

/-!
# The history of a session

Which reports steps make is said by the steps alone (`Session.reported`), and so is which of them
are held in the end (`Session.held`): a program makes those of its faults, a fault of evaluation
only if no other error is held, and a reset drops what is held. A journal keeps its reports and its
flags apart, and a reset forgets both but not what the sink got. After any steps the journal holds
the reports that are to be held, the flags say which kinds these have, the sink has every report
that was ever made, and nothing but the sink depends on the sink (`session_accounted`).

Every step but a reset adds the reports that it shows, and does nothing else to the journal
(`Session.step_of_ne_reset`), and these are the reports that it makes (`Session.shown_eq`). So each
of the invariants has to be checked for added reports and for a reset, and not for every kind of
step.
-/

namespace LoxCalc

namespace Session

/-! ## What steps report -/

/-- The reports that a step makes while others are held. A program is not evaluated if one of these
is of scanning or parsing. -/
def Step.reports (held : List Report) : Step → List Report
  | .run source => Program.staticReports source ++
      if held.any Report.isStatic then [] else Program.runtimeReports source
  | .showTree source => Program.staticReports source
  | .report r => [r]
  | .reset | .dump => []

/-- The reports that are held after a step: none after a reset, and one's own besides the others
after any other. -/
def Step.hold (held : List Report) : Step → List Report
  | .reset => []
  | s => held ++ s.reports held

/-- The reports that are held after steps, if some were held before. -/
def heldFrom (held : List Report) (steps : List Step) : List Report :=
  steps.foldl Step.hold held

/-- The reports that steps make, in order, if some are held before. -/
def reportedFrom (held : List Report) : List Step → List Report
  | [] => []
  | s :: later => s.reports held ++ reportedFrom (s.hold held) later

/-- The reports that are held after the steps of a session. -/
def held (steps : List Step) : List Report :=
  heldFrom [] steps

/-- The reports that the steps of a session make, in order, also those that a later reset drops. -/
def reported (steps : List Step) : List Report :=
  reportedFrom [] steps

/-- No step but a reset drops a report. -/
theorem Step.hold_of_ne_reset (held : List Report) {s : Step} (hs : s ≠ .reset) :
    s.hold held = held ++ s.reports held := by
  cases s <;> first | rfl | exact absurd rfl hs

/-- What is held was made by the steps or held before. -/
theorem heldFrom_suffix (held : List Report) (steps : List Step) :
    heldFrom held steps <:+ held ++ reportedFrom held steps := by
  induction steps generalizing held with
  | nil => exact ⟨[], (List.append_nil held).symm⟩
  | cons s later ih =>
    rw [heldFrom, List.foldl_cons, reportedFrom]
    refine (ih (s.hold held)).trans ?_
    by_cases hs : s = .reset
    · subst hs
      exact List.suffix_append held _
    · exact ⟨[], by rw [List.nil_append, Step.hold_of_ne_reset held hs, List.append_assoc]⟩

/-! ## One step -/

/-- The journal after steps, one after another. -/
def after (j : Journal) : List Step → Journal
  | [] => j
  | s :: later => after (step j s).2 later

/-- The journal after more steps is that after the later ones. -/
theorem after_append (j : Journal) (steps later : List Step) :
    after j (steps ++ later) = after (after j steps) later := by
  induction steps generalizing j with
  | nil => rfl
  | cons s steps ih => exact ih (step j s).2

/-- A reset shows nothing and reports nothing. -/
theorem shown_reset (j : Journal) : shown j .reset = (none, []) := by
  simp [shown, step, Journal.reset]

/-- A step that is no reset adds the reports that it shows. -/
theorem step_of_ne_reset (j : Journal) {s : Step} (hs : s ≠ .reset) :
    (step j s).2 = j.addAll (shown j s).2 := by
  cases s with
  | run source => rw [shown_run, step, Journal.run_eq]
  | showTree source =>
    rw [shown_showTree, step, Journal.showTree_eq, Journal.mask, Program.filter_staticReports,
      ite_self]
  | reset => exact absurd rfl hs
  | dump => simp [shown, step, Journal.addAll]
  | report r => simp [shown, step, Journal.add, Journal.addAll]

end Session

/-! ## Flags and reports -/

namespace Journal

/-- The flags of a journal say of which kinds its reports are. -/
structure Consistent (j : Journal) : Prop where
  /-- The error flag is set by a report of scanning or parsing. -/
  hadError : j.hadError = j.reports.any Report.isStatic
  /-- The other flag is set by a report of evaluation. -/
  hadRuntimeError : j.hadRuntimeError = j.reports.any (!·.isStatic)

/-- A new journal has no reports and no flags. -/
theorem consistent_new (sink : Sink) : (new sink).Consistent := ⟨rfl, rfl⟩

/-- Reports keep the flags consistent. -/
theorem Consistent.addAll {j : Journal} (h : j.Consistent) (rs : List Report) :
    (j.addAll rs).Consistent := by
  rw [addAll_eq]
  constructor
  · rw [List.any_append, ← h.hadError]
  · rw [List.any_append, ← h.hadRuntimeError]

/-- A step keeps the flags consistent with the reports. -/
theorem Consistent.step {j : Journal} (h : j.Consistent) (s : Session.Step) :
    (Session.step j s).2.Consistent := by
  by_cases hs : s = .reset
  · rw [hs]
    exact consistent_new j.sink
  · rw [Session.step_of_ne_reset j hs]
    exact h.addAll _

/-- Any steps keep the flags consistent. -/
theorem Consistent.after {j : Journal} (h : j.Consistent) (steps : List Session.Step) :
    (Session.after j steps).Consistent := by
  induction steps generalizing j with
  | nil => exact h
  | cons s later ih => exact ih (h.step s)

/-- In a consistent journal a step shows the reports that it makes. -/
theorem Consistent.shown_eq {j : Journal} (h : j.Consistent) (s : Session.Step) :
    (Session.shown j s).2 = s.reports j.reports := by
  cases s with
  | run source =>
    rw [Session.shown_run, Session.Step.reports, mask, ← h.hadError, List.filter_append,
      Program.filter_staticReports, Program.filter_runtimeReports]
    cases j.hadError <;> simp
  | showTree source => rw [Session.shown_showTree, Session.Step.reports]
  | reset => rw [Session.shown_reset, Session.Step.reports]
  | dump => simp [Session.shown, Session.step, Session.Step.reports]
  | report r => simp [Session.shown, Session.step, Session.Step.reports, add]

/-- After a step a consistent journal holds what is to be held, and the sink has what was made. -/
theorem Consistent.step_eq {j : Journal} (h : j.Consistent) (s : Session.Step) :
    (Session.step j s).2.reports = s.hold j.reports ∧ (Session.step j s).2.sink =
      (s.reports j.reports).foldl (fun sink r => sink.writeLine r.message) j.sink := by
  by_cases hs : s = .reset
  · subst hs
    exact ⟨rfl, rfl⟩
  · rw [Session.step_of_ne_reset j hs, h.shown_eq, addAll_eq, Session.Step.hold_of_ne_reset _ hs]
    exact ⟨rfl, rfl⟩

/-- After any steps too. -/
theorem Consistent.after_eq {j : Journal} (h : j.Consistent) (steps : List Session.Step) :
    (Session.after j steps).reports = Session.heldFrom j.reports steps ∧
      (Session.after j steps).sink = (Session.reportedFrom j.reports steps).foldl
        (fun sink r => sink.writeLine r.message) j.sink := by
  induction steps generalizing j with
  | nil => exact ⟨rfl, rfl⟩
  | cons s later ih =>
    obtain ⟨hreports, hsink⟩ := ih (h.step s)
    obtain ⟨hheld, hmade⟩ := h.step_eq s
    rw [hheld] at hreports hsink
    rw [hmade, ← List.foldl_append] at hsink
    exact ⟨hreports, hsink⟩

/-- What steps show on a consistent journal are the reports that they make. -/
theorem Consistent.outputs_eq {j : Journal} (h : j.Consistent) (steps : List Session.Step) :
    (Session.outputs j steps).flatMap Prod.snd = Session.reportedFrom j.reports steps := by
  induction steps generalizing j with
  | nil => rfl
  | cons s later ih =>
    have hlater := ih (h.step s)
    rw [(h.step_eq s).1] at hlater
    rw [Session.outputs, List.flatMap_cons, hlater, h.shown_eq, Session.reportedFrom]

/-- The exit code of a consistent journal is that of its reports. -/
theorem Consistent.exitCode? {j : Journal} (h : j.Consistent) :
    j.exitCode? = ((new j.sink).addAll j.reports).exitCode? := by
  rw [exitCode?_new_addAll, Journal.exitCode?, h.hadError, h.hadRuntimeError]
  rfl

/-! ## Journals with other sinks -/

/-- Two journals that differ in nothing but their sinks. -/
structure Alike (j j' : Journal) : Prop where
  /-- They hold the same reports. -/
  reports : j.reports = j'.reports
  /-- Their error flags are the same. -/
  hadError : j.hadError = j'.hadError
  /-- So are their flags of errors in evaluation. -/
  hadRuntimeError : j.hadRuntimeError = j'.hadRuntimeError

/-- The same reports keep journals alike. -/
theorem Alike.addAll {j j' : Journal} (h : j.Alike j') (rs : List Report) :
    (j.addAll rs).Alike (j'.addAll rs) := by
  rw [addAll_eq, addAll_eq]
  constructor
  · rw [h.reports]
  · rw [h.hadError]
  · rw [h.hadRuntimeError]

/-- Alike journals show the same. -/
theorem Alike.shown {j j' : Journal} (h : j.Alike j') (s : Session.Step) :
    Session.shown j s = Session.shown j' s := by
  by_cases hs : s = .dump
  · have hdump : j.dump = j'.dump := by
      rw [dump, dump, h.reports, h.hadError, h.hadRuntimeError]
    rw [hs, Session.shown, Session.shown, Session.step, Session.step, hdump, h.reports]
  · -- Any other step looks at the error flag only.
    exact (Session.shown_congr h.hadError hs).1

/-- A step leaves alike journals alike. -/
theorem Alike.step {j j' : Journal} (h : j.Alike j') (s : Session.Step) :
    (Session.step j s).2.Alike (Session.step j' s).2 := by
  by_cases hs : s = .reset
  · rw [hs]
    exact ⟨rfl, rfl, rfl⟩
  · rw [Session.step_of_ne_reset j hs, Session.step_of_ne_reset j' hs, h.shown s]
    exact h.addAll _

/-- Alike journals show the same in all steps, and are alike after them. -/
theorem Alike.run {j j' : Journal} (h : j.Alike j') (steps : List Session.Step) :
    Session.outputs j steps = Session.outputs j' steps ∧
      (Session.after j steps).Alike (Session.after j' steps) := by
  induction steps generalizing j j' with
  | nil => exact ⟨rfl, h⟩
  | cons s later ih =>
    obtain ⟨houtputs, hafter⟩ := ih (h.step s)
    refine ⟨?_, hafter⟩
    rw [Session.outputs, Session.outputs, h.shown s, houtputs]

end Journal

/-! ## Any steps -/

namespace Session

/-- What a new journal is good for after some steps. -/
structure Accounted (sink : Sink) (steps : List Step) : Prop where
  /-- The error flag is set exactly if a fault of scanning or parsing is held. -/
  hadError_iff : (after (.new sink) steps).hadError = true ↔
    ∃ r ∈ (after (.new sink) steps).reports, (∃ f, r = .lexical f) ∨ ∃ f, r = .grammar f
  /-- The flag of errors in evaluation is set exactly if a fault of evaluation is held. -/
  hadRuntimeError_iff : (after (.new sink) steps).hadRuntimeError = true ↔
    ∃ f, .runtime f ∈ (after (.new sink) steps).reports
  /-- No exit code is asked for exactly if no report is held. -/
  exit_none : (after (.new sink) steps).exitCode? = none ↔ (after (.new sink) steps).reports = []
  /-- The exit code of errors before evaluation goes before the other. -/
  exit_data : (after (.new sink) steps).hadError = true →
    (after (.new sink) steps).exitCode? = some 65
  /-- The reports held are those that the steps have made since the last reset. -/
  held : (after (.new sink) steps).reports = Session.held steps
  /-- They are the last ones of all that were made. -/
  held_suffix : Session.held steps <:+ reported steps
  /-- What the steps show, one after another, are the reports that they make. -/
  shown : (outputs (.new sink) steps).flatMap Prod.snd = reported steps
  /-- A reset forgets the reports held. -/
  cleared : (after (.new sink) (steps ++ [.reset])).reports = []
  /-- A working sink has the line of every report ever made behind what it had before. -/
  written : ∀ text, sink = .buffer text → (after (.new sink) steps).sink =
    .buffer (text ++ Text.unlines ((reported steps).map Report.message))
  /-- With any other sink every step returns and reports the same, and the reports held, the flags
  and the exit code are the same. -/
  unaffected : ∀ sink', outputs (.new sink') steps = outputs (.new sink) steps ∧
    (after (.new sink') steps).Alike (after (.new sink) steps) ∧
    (after (.new sink') steps).exitCode? = (after (.new sink) steps).exitCode?

end Session

/-- A new journal is accounted for after any steps, whatever its sink. -/
theorem session_accounted (sink : Sink) (steps : List Session.Step) :
    Session.Accounted sink steps := by
  have hconsistent : (Session.after (.new sink) steps).Consistent :=
    (Journal.consistent_new sink).after steps
  have hexit := hconsistent.exitCode?
  constructor
  case hadError_iff =>
    rw [hconsistent.hadError, List.any_eq_true]
    simp only [Report.isStatic_iff]
  case hadRuntimeError_iff =>
    rw [hconsistent.hadRuntimeError, List.any_eq_true]
    simp only [Bool.not_eq_true', Report.isStatic_eq_false_iff]
    constructor
    · rintro ⟨r, hr, f, rfl⟩
      exact ⟨f, hr⟩
    · rintro ⟨f, hf⟩
      exact ⟨_, hf, f, rfl⟩
  case exit_none => rw [hexit, Journal.exitCode?_eq_none_iff]
  case exit_data =>
    intro hflag
    rw [Journal.exitCode?, if_pos hflag]
    rfl
  case held => exact ((Journal.consistent_new sink).after_eq steps).1
  case held_suffix => exact Session.heldFrom_suffix [] steps
  case shown => exact (Journal.consistent_new sink).outputs_eq steps
  -- A reset clears all but the sink.
  case cleared =>
    rw [Session.after_append]
    rfl
  case written =>
    rintro text rfl
    rw [((Journal.consistent_new _).after_eq steps).2]
    exact Sink.foldl_writeLine text _
  -- New journals differ in their sinks only, and no step looks at these.
  case unaffected =>
    intro sink'
    have halike : (Journal.new sink').Alike (.new sink) := ⟨rfl, rfl, rfl⟩
    obtain ⟨houtputs, hafter⟩ := halike.run steps
    refine ⟨houtputs, hafter, ?_⟩
    rw [Journal.exitCode?, Journal.exitCode?, hafter.hadError, hafter.hadRuntimeError]

end LoxCalc
