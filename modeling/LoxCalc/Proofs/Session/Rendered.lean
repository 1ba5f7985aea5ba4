import LoxCalc.Proofs.Number.Sign
import LoxCalc.Proofs.Scan.Spaced
import LoxCalc.Proofs.Session.Outcome

/-!
# Texts of values are programs

The text of `nil`, of a boolean or of a finite number is a program for the same value
(`Value.IsWritable.evaluatesTo_text`), so that the output of a program with such a value runs to
itself (`run_output`).

A magnitude is shown as a number literal: its text never has an exponent and never begins or ends
with a point, so that the scanner takes all of it (`Lexeme.standalone_numeral`), and it reads back
as the magnitude. The sign of a negative number, zero included, is an operator, and the negation
that it stands for restores the number bit by bit.
-/

namespace LoxCalc

open Unicode (Cluster)
open Grammar (Derives)

/-! ## Number literals -/

namespace Lexeme

/-- The number literal that a magnitude is shown as. -/
def numeral (bits : Nat) : Lexeme :=
  ⟨.token .number (some (.number (Number.ofPattern bits))),
    (Number.shortest bits).positional.map fun c => [c]⟩

/-- A minus sign. -/
def minus : Lexeme :=
  ⟨.token .minus none, [['-']]⟩

/-- Clusters of one character each spell the characters. -/
theorem flatten_map_singleton (cs : List Char) : (cs.map fun c => [c]).flatten = cs := by
  rw [← List.flatMap_def, List.flatMap_singleton']

/-- The literal is spelled as the decimal. -/
theorem flatten_body_numeral (bits : Nat) :
    (numeral bits).body.flatten = (Number.shortest bits).positional :=
  flatten_map_singleton _

/-- Digits are clusters that are digits. -/
theorem isDigit_singletons {cs : List Char} (h : ∀ c ∈ cs, c.isDigit = true) :
    ∀ c ∈ cs.map fun c => [c], isDigit c = true := by
  intro c hc
  obtain ⟨ch, hch, rfl⟩ := List.mem_map.mp hc
  simp [isDigit, h ch hch]

/-- The positional text of a decimal is the whole literal of a number. -/
theorem taken_positional {d : Number.Decimal} {x : Float}
    (hread : Number.ofText? d.positional = some x) :
    Taken ⟨.token .number (some (.number x)), d.positional.map fun c => [c]⟩ [] := by
  rw [← flatten_map_singleton d.positional] at hread
  -- A decimal is written with a point or without one, and the number is taken so.
  rcases d.positional_cases with ⟨zeros, -, htext⟩ |
    ⟨zeros, whole, fraction, -, hwhole, hfraction, hall, htext⟩
  · have hdigits := (d.isDigit_of_mem_padded zeros).1
    have hne : d.digits ++ List.replicate zeros '0' ≠ [] :=
      List.append_ne_nil_of_left_ne_nil Nat.toDigits_ne_nil _
    rw [htext] at hread ⊢
    exact .whole (mt List.map_eq_nil_iff.mp hne) (isDigit_singletons hdigits) (endsRun_nil _) rfl
      hread
  · have hdigits := (d.isDigit_of_mem_padded zeros).2
    rw [← hall, List.forall_mem_append] at hdigits
    rw [htext, List.map_append, List.map_cons] at hread ⊢
    exact .fraction (mt List.map_eq_nil_iff.mp hwhole) (isDigit_singletons hdigits.1)
      (mt List.map_eq_nil_iff.mp hfraction) (isDigit_singletons hdigits.2) (endsRun_nil _) hread

/-- The literal can be taken by itself. -/
theorem standalone_numeral {bits : Nat} (h : bits ≤ Number.infinityBits) :
    (numeral bits).Standalone := by
  have htaken : Taken (numeral bits) [] := taken_positional (Number.ofText?_positional h)
  refine ⟨⟨_, _, rfl⟩, htaken, ?_⟩
  have hprintable := htaken.isPrintable rfl (by decide)
  rw [Cluster.segment_of_ascii fun c hc => isAscii_of_isPrintable (hprintable c hc),
    flatten_body_numeral]
  rfl

/-- A magnitude behind a minus sign is scanned as the sign and the magnitude. -/
theorem all_minus_numeral {bits : Nat} (h : bits ≤ Number.infinityBits) :
    all (Cluster.segment ('-' :: (Number.shortest bits).positional)) = [minus, numeral bits] := by
  have hnumeral := standalone_numeral h
  have hhead := hnumeral.head_ascii []
  rw [List.append_nil] at hhead
  have hminus : all (['-'] :: (numeral bits).body) = minus :: all (numeral bits).body :=
    (Taken.punctuation rfl).all_eq
  rw [← flatten_body_numeral, Cluster.segment_cons_of_ascii (by decide) hhead, hnumeral.segment,
    hminus, hnumeral.taken.all_body]

end Lexeme

/-! ## Programs of one value -/

/-- The token of a number literal is a word without operators. -/
theorem derives_number {t : Token} {x : Float} {lexeme : String}
    (h : t.spelled = (.number, some (.number x), lexeme)) :
    Derives .unary [t] (.literal (.number x)) :=
  .primary (.carried (.inl (congrArg Prod.fst h)) (congrArg (fun p => p.2.1) h))

/-- The program has the value in a new session. -/
def EvaluatesTo (source : String) (v : Value) : Prop :=
  ∃ e, ((Journal.new .none).parse source).1 = some e ∧ e.eval = .ok v

namespace EvaluatesTo

variable {source : String}

/-- A program that has a value runs to the text of the value and reports nothing. -/
theorem run_eq {v : Value} (h : EvaluatesTo source v) (sink : Sink) :
    (Journal.new sink).run source = (some v.text, .new sink) := by
  obtain ⟨e, htree, heval⟩ := h
  rw [Program.parse_new] at htree
  exact (Program.run_of_tree? htree sink).1 v heval

/-- A program has the value of its tree. -/
theorem of_tree? {e : Expr} {v : Value} (htree : Program.tree? source = some e)
    (heval : e.eval = .ok v) : EvaluatesTo source v := by
  refine ⟨e, ?_, heval⟩
  rw [Program.parse_new, htree]

/-- A program without binary operators has the value of the tree that its tokens are. -/
theorem of_derives {e : Expr} {v : Value} (hfaults : (Scan.ofSource source).faults = [])
    (hd : Derives .unary (Scan.ofSource source).tokens e) (hroom : e.nesting ≤ maxNesting)
    (heval : e.eval = .ok v) : EvaluatesTo source v :=
  of_tree? (Program.tree?_of_derives hfaults (hd.chain_of_unary .equality) hroom) heval

/-- A number literal has its number. -/
theorem of_number {x : Float} {lexeme : String} (hfaults : (Scan.ofSource source).faults = [])
    (htokens : (Scan.ofSource source).tokens.map Token.spelled =
      [(.number, some (.number x), lexeme)]) : EvaluatesTo source (.number x) := by
  obtain ⟨t, htoken, ht⟩ := List.map_eq_singleton_iff.mp htokens
  have hd := derives_number ht
  rw [← htoken] at hd
  exact of_derives hfaults hd (Nat.zero_le _) rfl

/-- A minus sign and a number literal have the negation of the number. -/
theorem of_minus {x : Float} {sign lexeme : String} (hfaults : (Scan.ofSource source).faults = [])
    (htokens : (Scan.ofSource source).tokens.map Token.spelled =
      [(.minus, none, sign), (.number, some (.number x), lexeme)]) :
    EvaluatesTo source (.number (-x)) := by
  obtain ⟨operator, ts, htoken, hoperator, hts⟩ := List.map_eq_cons_iff.mp htokens
  obtain ⟨t, rfl, ht⟩ := List.map_eq_singleton_iff.mp hts
  -- The spelled tokens have the kinds, and the lines do not matter.
  have hkind : operator.kind = .minus := congrArg Prod.fst hoperator
  have hd := Derives.unary (.inr hkind) (derives_number ht)
  rw [← htoken] at hd
  have hroom : (Expr.unary operator (.literal (.number x))).nesting ≤ maxNesting := by
    rw [Expr.nesting_unary, Expr.nesting_literal]
    decide
  have happly : Expr.applyUnary operator (.number x) = .ok (.number (-x)) := by
    simp only [Expr.applyUnary, hkind]
  exact of_derives hfaults hd hroom happly

end EvaluatesTo

/-! ## Texts of values -/

/-- A value that can be written as a program: nothing, a truth value, or a finite number. -/
inductive Value.IsWritable : Value → Prop
  | nil : IsWritable .nil
  | boolean (b : Bool) : IsWritable (.boolean b)
  | number {x : Float} : x.isFinite = true → IsWritable (.number x)

/-- The text of a finite number is a program for it. -/
theorem evaluatesTo_text_of_isFinite {x : Float} (h : x.isFinite = true) :
    EvaluatesTo (Number.text x) (.number x) := by
  obtain ⟨bits, hlt, ⟨hx, htext⟩ | ⟨hx, htext⟩⟩ := Number.exists_of_isFinite h
  · -- The text is one literal.
    have hspaced : Lexeme.spaced [Lexeme.numeral bits] = Number.text x := by
      rw [htext, ← Lexeme.flatten_body_numeral]
      rfl
    obtain ⟨htokens, hfaults⟩ := Scan.ofSource_spaced
      (List.forall_mem_singleton.mpr (Lexeme.standalone_numeral hlt.le))
    rw [hspaced] at htokens hfaults
    rw [hx] at htokens hfaults ⊢
    exact .of_number hfaults htokens
  · -- The text is a sign and a literal without a blank between them.
    have hall := Lexeme.all_minus_numeral hlt.le
    rw [← String.toList_ofList (l := '-' :: _), ← htext] at hall
    obtain ⟨htokens, hfaults⟩ := Scan.ofSource_of_all hall rfl
    rw [hx] at htokens hfaults ⊢
    exact .of_minus hfaults htokens

/-- The text of a value that can be written is a program for the value. -/
theorem Value.IsWritable.evaluatesTo_text {v : Value} (h : v.IsWritable) :
    EvaluatesTo v.text v := by
  cases h with
  | nil =>
    have htree : Program.tree? "nil" = some (.literal .nil) := by cbv
    exact .of_tree? htree rfl
  | boolean b =>
    have htrue : Program.tree? "true" = some (.literal .true) := by cbv
    have hfalse : Program.tree? "false" = some (.literal .false) := by cbv
    cases b with
    | true => exact .of_tree? htrue rfl
    | false => exact .of_tree? hfalse rfl
  | number hx => exact evaluatesTo_text_of_isFinite hx

/-- What a program with a value that can be written returns is itself a program: it runs to itself,
reports nothing and has the same value. -/
theorem run_output {source text : String} {v : Value} (h : EvaluatesTo source v)
    (hv : v.IsWritable) {sink : Sink} (htext : ((Journal.new sink).run source).1 = some text) :
    (∀ sink', (Journal.new sink').run text = (some text, .new sink')) ∧ EvaluatesTo text v := by
  have hrun := congrArg Prod.fst (h.run_eq sink)
  obtain rfl : v.text = text := Option.some.inj (hrun.symm.trans htext)
  have hsame := hv.evaluatesTo_text
  exact ⟨hsame.run_eq, hsame⟩

/-- Zero keeps its sign, which the program has apart from the digit. -/
theorem run_output_negative_zero :
    (Journal.new .none).run "-0" = (some "-0", .new .none) ∧
      EvaluatesTo "-0" (.number (-Number.ofPattern 0)) := by
  have hstandalone : ∀ l ∈ [Lexeme.minus, Lexeme.numeral 0], l.Standalone :=
    List.forall_mem_cons.mpr ⟨Lexeme.standalone_of_punctuation rfl,
      List.forall_mem_singleton.mpr (Lexeme.standalone_numeral (Nat.zero_le _))⟩
  have hspaced : Lexeme.spaced [Lexeme.minus, Lexeme.numeral 0] = "- 0" := by decide
  obtain ⟨htokens, hfaults⟩ := Scan.ofSource_spaced hstandalone
  rw [hspaced] at htokens hfaults
  have hvalue : EvaluatesTo "- 0" (.number (-Number.ofPattern 0)) := .of_minus hfaults htokens
  have hfinite : (-Number.ofPattern 0).isFinite = true := by decide +kernel
  have hshown : Value.text (.number (-Number.ofPattern 0)) = "-0" := by decide +kernel
  have htext : ((Journal.new .none).run "- 0").1 = some "-0" := by
    rw [hvalue.run_eq, hshown]
  obtain ⟨hrun, hsame⟩ := run_output hvalue (.number hfinite) htext
  exact ⟨hrun .none, hsame⟩

end LoxCalc
