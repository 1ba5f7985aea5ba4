import LoxCalc.Command.Interpret
import LoxCalc.Proofs.Session.Outcome
import Mathlib

/-!
# How the interpreter ends on a script

A script that can be read has the three outcomes of its program, each with its own exit code and
streams (`ScriptEnds`): the text of its value on standard output, or its reports on standard error
and nothing on standard output. `script_trichotomy` joins the outcomes of programs and of the
command, for every call with a script.
-/

namespace LoxCalc.Command.Interpret

open Program

/-- A call of the command with a script. -/
structure ScriptCall where
  /-- The command line. -/
  arguments : List String
  /-- What it was read as. -/
  parsed : Arguments
  /-- The path of the script. -/
  path : String
  /-- The files. -/
  files : FileTree
  /-- Standard input. -/
  input : List UInt8
  /-- Whether writing to standard output fails. -/
  full : Bool
  /-- The command line can be used. -/
  read_eq : options.read arguments = .run parsed
  /-- It names the script. -/
  positional_eq : parsed.positional = some path

namespace ScriptCall

variable (call : ScriptCall)

/-- Whether the tree is asked for. -/
def tree : Bool :=
  call.parsed.switches.contains "print-ast"

/-- How the command ends. -/
def completion : Completion :=
  run call.arguments call.files call.input call.full

/-- The text of the script, if it can be read and is a text. -/
def source? : Option String :=
  match call.files.read call.path with
  | .ok bytes => Text.Utf8.decode? bytes
  | .error _ => none

/-- A call with a script runs what is read at its path. -/
theorem completion_eq : call.completion =
    script call.tree call.full call.path (call.files.read call.path) := by
  rw [completion, run, call.read_eq]
  simp only [call.positional_eq, tree]

end ScriptCall

/-- What a program reports in a new session, when it is run or when its tree is shown. -/
def reports (tree : Bool) (source : String) : List Report :=
  (answer tree (Journal.new .none) source).2.reports

/-- The program has the tree `e`, and the text is that of the tree or of its value. -/
def Shows (tree : Bool) (source text : String) : Prop :=
  ∃ e, (Parser.ofTokens (Scan.ofSource source).allTokens).parse.1 = .ok e ∧
    if tree then text = e.render else ∃ v, e.eval = .ok v ∧ text = v.text

/-- How the command can end on the script `source`. -/
inductive ScriptEnds (tree full : Bool) (source : String) : Completion → Prop
  /-- Nothing is reported, and the text is written if it can be. -/
  | shown {text : String} : Shows tree source text → reports tree source = [] →
    ScriptEnds tree full source
      (if full then ⟨74, "", FileError.storageFull.message ++ "\n"⟩ else ⟨0, text ++ "\n", ""⟩)
  /-- There is a lexical fault or one of grammar. -/
  | rejected {r : Report} : r ∈ reports tree source →
    ((∃ f, r = .lexical f) ∨ ∃ f, r = .grammar f) →
    ScriptEnds tree full source ⟨65, "", Text.unlines ((reports tree source).map Report.message)⟩
  /-- The program is evaluated and fails. -/
  | failed {f : RuntimeFault} : tree = false → reports tree source = [.runtime f] →
    ScriptEnds tree full source ⟨70, "", Text.unlines ((reports tree source).map Report.message)⟩

/-! ## The answer to a program -/

/-- The text that is shown for a program. -/
def shown? (tree : Bool) (source : String) : Option String :=
  if tree then (tree? source).map Expr.render else value? source

/-- What is shown is the tree of the program, or the text of its value. -/
theorem shows_of_shown? {tree : Bool} {source text : String}
    (h : shown? tree source = some text) : Shows tree source text := by
  cases tree with
  | true =>
    obtain ⟨e, htree, htext⟩ := Option.map_eq_some_iff.mp h
    exact ⟨e, parse_of_tree? htree, htext.symm⟩
  | false =>
    obtain ⟨e, v, htree, heval, htext⟩ := eval_of_value? h
    exact ⟨e, parse_of_tree? htree, v, heval, htext⟩

/-- A tree is shown without evaluation, so that only static reports are made for it. -/
theorem reports_eq (tree : Bool) (source : String) : reports tree source =
    if tree then staticReports source else staticReports source ++ runtimeReports source := by
  cases tree with
  | true => simp [reports, answer, showTree_new]
  | false => simp [reports, answer, run_new]

/-- The answer to a program in a new session adds its reports, whatever the sink. -/
theorem answer_new (tree : Bool) (sink : Sink) (source : String) :
    answer tree (Journal.new sink) source =
      ((shown? tree source).map (· ++ "\n"), (Journal.new sink).addAll (reports tree source)) := by
  rw [reports_eq]
  cases tree with
  | true => simp [answer, showTree_new, shown?]
  | false => simp [answer, run_new, shown?]

/-- A program has an outcome of one kind, whether its value or its tree is asked for. -/
theorem trichotomy_answer (tree : Bool) (source : String) (sink : Sink) :
    Trichotomy (shown? tree source, (Journal.new sink).addAll (reports tree source)) := by
  rw [reports_eq]
  cases tree with
  | true => simpa [showTree_new, shown?] using trichotomy_showTree source sink
  | false => simpa [run_new, shown?] using trichotomy_run source sink

/-- Showing a tree reports no fault of evaluation. -/
theorem reports_true_ne_runtime (source : String) (f : RuntimeFault) :
    reports true source ≠ [.runtime f] := by
  intro h
  have hmem : .runtime f ∈ staticReports source := by
    have hreports := reports_eq true source
    rw [if_pos rfl, h] at hreports
    rw [← hreports]
    exact List.mem_singleton_self _
  exact absurd (isStatic_of_mem_staticReports hmem) Bool.false_ne_true

/-! ## The completion of a script -/

/-- A script whose content is a text ends in one of the three ways. -/
theorem scriptEnds_script {content : Except FileError (List UInt8)} {source : String}
    (h : content >>= decode = .ok source) (tree full : Bool) (path : String) :
    ScriptEnds tree full source (script tree full path content) := by
  obtain ⟨-, -, houtput, hnone, hdata, hsoftware⟩ := trichotomy_answer tree source (.buffer "")
  simp only [Journal.reports_new_addAll] at houtput hnone hdata hsoftware
  have hwritten := Journal.written_new_addAll (reports tree source)
  rw [script, h]
  simp only [answer_new]
  generalize (Journal.new (.buffer "")).addAll (reports tree source) = j at *
  cases hshown : shown? tree source with
  | some text =>
    have hnil : reports tree source = [] := houtput.mp (by rw [hshown]; rfl)
    have hempty : j.sink.written = "" := by rw [hwritten, hnil]; rfl
    have hends : ScriptEnds tree full source _ := .shown (shows_of_shown? hshown) hnil
    simp only [Option.map_some, hnone.mpr hnil, hempty, String.empty_append, Option.getD_none]
    exact hends
  | none =>
    -- Something is reported, which asks for one of the two exit codes.
    have hne : reports tree source ≠ [] := fun hnil => by simpa [hshown] using houtput.mpr hnil
    simp only [Option.map_none, hwritten]
    rcases j.exitCode?_cases with hexit | hexit | hexit
    · exact absurd (hnone.mp hexit) hne
    · obtain ⟨r, hr, hkind⟩ := hdata.mp hexit
      rw [hexit]
      exact .rejected hr hkind
    · obtain ⟨f, hf⟩ := hsoftware.mp hexit
      rw [hexit]
      cases tree with
      | true => exact absurd hf (reports_true_ne_runtime source f)
      | false => exact .failed rfl hf

/-- Without evaluation there is no error of evaluation. -/
theorem ScriptEnds.exit_ne_of_tree {full : Bool} {source : String} {c : Completion}
    (h : ScriptEnds true full source c) : c.exit ≠ 70 := by
  cases h with
  | shown _ _ => cases full <;> simp
  | rejected _ _ => simp
  | failed htree _ => cases htree

/-- A script that cannot be read, or is no text, leaves nothing on standard output. -/
theorem script_of_error {content : Except FileError (List UInt8)} {e : FileError}
    (h : content >>= decode = .error e) (tree full : Bool) (path : String) :
    (script tree full path content).exit = 66 ∧ (script tree full path content).stdout = "" := by
  rw [script, h]
  exact ⟨rfl, rfl⟩

/-- The text of a script is what its content decodes to. -/
theorem ScriptCall.source?_eq (call : ScriptCall) :
    call.source? = (call.files.read call.path >>= decode).toOption := by
  rw [source?]
  cases call.files.read call.path with
  | error e => rfl
  | ok bytes =>
    show Text.Utf8.decode? bytes = (decode bytes).toOption
    rw [decode]
    cases Text.Utf8.decode? bytes <;> rfl

/-- Every program in a new session, run or with its tree shown, has one of three outcomes, which its
reports tell apart. So does the command on every call with a script that can be read and is a text;
any other script gives the exit code for that. No script fails in evaluation if its tree is asked
for. -/
theorem script_trichotomy (source : String) (sink : Sink) (call : ScriptCall) :
    Trichotomy ((Journal.new sink).run source) ∧
    Trichotomy ((Journal.new sink).showTree source) ∧
    (∀ text, call.source? = some text → ScriptEnds call.tree call.full text call.completion) ∧
    (call.source? = none → call.completion.exit = 66 ∧ call.completion.stdout = "") ∧
    (call.tree = true → call.completion.exit ≠ 70) := by
  refine ⟨trichotomy_run source sink, trichotomy_showTree source sink, ?_⟩
  rw [call.source?_eq, call.completion_eq]
  -- What is read is either no text, and then nothing is evaluated, or the source of the call.
  cases h : call.files.read call.path >>= decode with
  | error e =>
    obtain ⟨hexit, hstdout⟩ := script_of_error h call.tree call.full call.path
    refine ⟨fun text htext => ?_, fun _ => ⟨hexit, hstdout⟩, fun _ => ?_⟩
    · cases htext
    · rw [hexit]
      decide
  | ok text =>
    have hends := scriptEnds_script h call.tree call.full call.path
    refine ⟨fun text' htext => ?_, fun hnone => ?_, fun htree => ?_⟩
    · obtain rfl : text = text' := Option.some.inj htext
      exact hends
    · cases hnone
    · rw [htree] at hends ⊢
      exact hends.exit_ne_of_tree

/-- A call for the tree of a script that holds an opening parenthesis and nothing else. -/
def openParenthesis : ScriptCall where
  arguments := ["--print-ast", "s"]
  parsed := { positional := some "s", switches := ["print-ast"] }
  path := "s"
  files := ⟨[(["s"], .file [0x28])]⟩
  input := []
  full := false
  read_eq := by cbv
  positional_eq := rfl

/-- The script is read, its tree is asked for, and the call ends in one of the three ways, but not
in evaluation. -/
theorem script_trichotomy_openParenthesis :
    openParenthesis.source? = some "(" ∧ openParenthesis.tree = true ∧
    ScriptEnds true false "(" openParenthesis.completion ∧
    openParenthesis.completion.exit ≠ 70 := by
  have hsource : openParenthesis.source? = some "(" := by
    have hsegments : FileTree.segments "s" = ["s"] := by cbv
    rw [ScriptCall.source?, openParenthesis, FileTree.read, FileTree.resolve, hsegments]
    rfl
  have htree : openParenthesis.tree = true := by decide
  obtain ⟨-, -, hends, -, hexit⟩ := script_trichotomy "(" .none openParenthesis
  have h := hends "(" hsource
  rw [htree] at h
  exact ⟨hsource, htree, h, hexit htree⟩

end LoxCalc.Command.Interpret
