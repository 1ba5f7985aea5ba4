import LoxCalc.Proofs.Command.Script

/-!
# How the interpreter answers at a prompt

One journal lives through all lines of a prompt, and its sink keeps the reports of all of them.
Since it is reset behind every line, the journal that a line meets is a new one, but for what stands
on its sink (`promptLine_new`). So the answer to every line and its reports are those of the line
alone, and a prompt writes them one after another (`promptFrom_append`), up to the end of its input
or to a line that is no text (`prompt_lines_independent`).
-/

namespace LoxCalc.Command.Interpret

open Program

/-- A call of the command without a script, whose standard output can be written to. -/
structure PromptCall where
  /-- The command line. -/
  arguments : List String
  /-- What it was read as. -/
  parsed : Arguments
  /-- The files. -/
  files : FileTree
  /-- Standard input. -/
  input : List UInt8
  /-- The command line can be used. -/
  read_eq : options.read arguments = .run parsed
  /-- It names no script. -/
  positional_eq : parsed.positional = none

namespace PromptCall

variable (call : PromptCall)

/-- Whether trees are asked for. -/
def tree : Bool :=
  call.parsed.switches.contains "print-ast"

/-- How the command ends. -/
def completion : Completion :=
  run call.arguments call.files call.input false

/-- The lines of standard input, each with the text that it is if it is one. -/
def texts? : List (Option String) :=
  (Text.byteLines call.input).map Text.Utf8.decode?

/-- A call without a script is a prompt on its input. -/
theorem completion_eq : call.completion = prompt call.tree false call.input := by
  rw [completion, run, call.read_eq]
  simp only [call.positional_eq, tree]

end PromptCall

/-- A program in a session of its own: the text of its value or tree, and the journal after it. -/
def alone (tree : Bool) (source : String) : Option String × Journal :=
  if tree then (Journal.new .none).showTree source else (Journal.new .none).run source

/-- What is shown for a line at a prompt: the sign and, if the line alone returns a text, that text
on a line. -/
def shownLine (tree : Bool) (source : String) : String :=
  "> " ++ match (alone tree source).1 with
    | some text => text ++ "\n"
    | none => ""

/-- What is reported for a line at a prompt: the reports of the line alone, each on a line. -/
def reportedLine (tree : Bool) (source : String) : String :=
  Text.unlines ((alone tree source).2.reports.map Report.message)

/-- What a line gives by itself is what is shown of it and its reports. -/
theorem alone_eq (tree : Bool) (source : String) : alone tree source =
    (shown? tree source, (Journal.new .none).addAll (reports tree source)) := by
  rw [reports_eq]
  cases tree with
  | true => exact showTree_new .none source
  | false => exact run_new .none source

/-! ## One line -/

/-- A journal that is new but for what stands on its sink answers a line as the line alone is
answered, and is again such a journal, with the reports of the line on its sink. -/
theorem promptLine_new (tree : Bool) (written source : String) :
    ∃ output, promptLine tree (Journal.new (.buffer written)) source =
        (output, Journal.new (.buffer (written ++ reportedLine tree source))) ∧
      promptSign ++ output = shownLine tree source := by
  have hreports : (alone tree source).2.reports = reports tree source := by
    rw [alone_eq]
    exact Journal.reports_new_addAll _ _
  have hshown : (alone tree source).1 = shown? tree source := by rw [alone_eq]
  have hsink : ((Journal.new (.buffer written)).addAll (reports tree source)).sink =
      .buffer (written ++ reportedLine tree source) := by
    rw [Journal.addAll_eq, reportedLine, hreports]
    exact Sink.foldl_writeLine written (reports tree source)
  -- The reset takes the reports off the journal; its sink keeps their lines.
  refine ⟨((shown? tree source).map (· ++ "\n")).getD "", ?_, ?_⟩
  · rw [promptLine, answer_new]
    dsimp only
    rw [Journal.reset, hsink]
  · rw [shownLine, hshown]
    cases shown? tree source <;> rfl

/-! ## All lines -/

/-- A prompt answers lines that are texts one after another, and then goes on. -/
theorem promptFrom_append (tree : Bool) {lines : List (List UInt8)} {texts : List String}
    (h : lines.map Text.Utf8.decode? = texts.map some) (written : String)
    (rest : List (List UInt8)) :
    promptFrom tree (Journal.new (.buffer written)) (lines ++ rest) =
      let later := promptFrom tree
        (Journal.new (.buffer (written ++ String.join (texts.map (reportedLine tree))))) rest
      { later with stdout := String.join (texts.map (shownLine tree)) ++ later.stdout } := by
  -- What the sink holds grows with each line, so it is arbitrary in the induction.
  induction lines generalizing texts written with
  | nil =>
    obtain rfl : texts = [] := by simpa using h
    simp
  | cons line lines ih =>
    cases texts with
    | nil => simp at h
    | cons source texts =>
      rw [List.map_cons, List.map_cons, List.cons.injEq] at h
      obtain ⟨hline, hlines⟩ := h
      have hdecode : decode line = .ok source := by rw [decode, hline]
      obtain ⟨output, hanswer, houtput⟩ := promptLine_new tree written source
      have hlater := ih hlines (written ++ reportedLine tree source)
      rw [List.cons_append, promptFrom, hdecode]
      dsimp only
      rw [hanswer]
      dsimp only
      rw [hlater]
      simp [houtput, String.append_assoc]

/-- At a prompt every line is a program by itself. If all lines of the input are texts, standard
output holds a sign and the answer for each of them and a last sign on a line of its own, standard
error holds their reports, and the command succeeds. If the input has a line that is no text, both
hold the same for the lines before it, then a sign and the fault, and the command fails. -/
theorem prompt_lines_independent (call : PromptCall) (texts : List String) :
    (call.texts? = texts.map some → call.completion =
      { exit := 0
        stdout := String.join (texts.map (shownLine call.tree)) ++ "> " ++ "\n"
        stderr := String.join (texts.map (reportedLine call.tree)) }) ∧
    ∀ later, call.texts? = texts.map some ++ none :: later → call.completion =
      { exit := 74
        stdout := String.join (texts.map (shownLine call.tree)) ++ "> "
        stderr := String.join (texts.map (reportedLine call.tree)) ++
          "stream did not contain valid UTF-8" ++ "\n" } := by
  rw [call.completion_eq]
  unfold prompt PromptCall.texts?
  rw [if_neg Bool.false_ne_true]
  dsimp only
  constructor
  · intro htexts
    have hfrom := promptFrom_append call.tree htexts "" []
    rw [List.append_nil, promptFrom] at hfrom
    rw [hfrom]
    simp [promptSign, Journal.new, Sink.written, String.append_assoc]
  · -- The lines before the one that is no text have been answered, and those behind it are not
    -- read.
    intro later htexts
    obtain ⟨lines, rest, hlines, hbefore, hrest⟩ := List.map_eq_append_iff.mp htexts
    obtain ⟨bad, after, rfl, hbad, -⟩ := List.map_eq_cons_iff.mp hrest
    have hdecode : decode bad = .error .invalidText := by rw [decode, hbad]
    have hfrom := promptFrom_append call.tree hbefore "" (bad :: after)
    rw [promptFrom, hdecode] at hfrom
    rw [hlines, hfrom]
    simp [promptSign, Journal.new, Sink.written, ioError, FileError.message, FileError.code?,
      FileError.description]

/-- A prompt without options, on the given input. -/
def plainPrompt (input : List UInt8) : PromptCall where
  arguments := []
  parsed := {}
  files := ⟨[]⟩
  input := input
  read_eq := by cbv
  positional_eq := rfl

/-- A line with an open parenthesis does not spoil the next one, which holds `nil`; and neither is
lost when the byte `FF` follows on a third line. -/
theorem prompt_lines_independent_after_fault :
    (plainPrompt [0x28, 0x0D, 0x0A, 0x6E, 0x69, 0x6C]).completion =
        ⟨0, "> > nil\n> \n", "[line 1] Error at end: Expect expression.\n"⟩ ∧
      (plainPrompt [0x28, 0x0A, 0x6E, 0x69, 0x6C, 0x0A, 0xFF]).completion =
        ⟨74, "> > nil\n> ", "[line 1] Error at end: Expect expression.\n" ++
          "stream did not contain valid UTF-8\n"⟩ := by
  have hopen : (alone false "(").1 = none ∧ (alone false "(").2.reports.map Report.message =
      ["[line 1] Error at end: Expect expression."] := by cbv
  have hnil : (alone false "nil").1 = some "nil" ∧ (alone false "nil").2.reports = [] := by cbv
  have hshown : shownLine false "(" = "> " ∧ shownLine false "nil" = "> nil\n" := by
    rw [shownLine, shownLine, hopen.1, hnil.1]
    decide
  have hreported : reportedLine false "(" = "[line 1] Error at end: Expect expression.\n" ∧
      reportedLine false "nil" = "" := by
    rw [reportedLine, reportedLine, hopen.2, hnil.2]
    decide
  have hgood : (plainPrompt [0x28, 0x0D, 0x0A, 0x6E, 0x69, 0x6C]).texts? =
      ["(", "nil"].map some := by decide
  have hbad : (plainPrompt [0x28, 0x0A, 0x6E, 0x69, 0x6C, 0x0A, 0xFF]).texts? =
      ["(", "nil"].map some ++ none :: [] := by decide
  have htree (input : List UInt8) : (plainPrompt input).tree = false := rfl
  constructor
  · rw [(prompt_lines_independent _ _).1 hgood, htree]
    simp [hshown, hreported]
  · rw [(prompt_lines_independent _ _).2 [] hbad, htree]
    simp [hshown, hreported]

end LoxCalc.Command.Interpret
