import LoxCalc.Proofs.Parser.Height
import LoxCalc.Proofs.Scan.Join
import LoxCalc.Proofs.Session.Outcome
import LoxCalc.Proofs.Unicode.Ascii
import Mathlib

/-!
# Programs in parentheses

A program in parentheses, with the closing one on a line of its own, is the same program one level
of nesting deeper (`program_in_parentheses`). Each stage lets the parentheses through. The scanner
takes the opening one by itself, since what follows it begins with an ASCII character, and the
closing one behind a line end, which ends a comment and takes in a carriage return: the tokens in
between are those of the program, on the same lines (`Scan.allTokens_parenthesized`). The grammar
has a rule for them, within the room for nesting, and evaluation passes the value or the fault on.
-/

namespace LoxCalc

open Unicode (Cluster IsAscii)

/-- A source in parentheses, the closing one on a line of its own. -/
def parenthesized (source : String) : String :=
  "(" ++ source ++ "\n" ++ ")"

/-- The parentheses stand around the source, the closing one behind a line end. -/
theorem toList_parenthesized (source : String) :
    (parenthesized source).toList = '(' :: (source.toList ++ '\n' :: [')']) := by
  simp [parenthesized]

namespace Scan

/-- A source without lexical faults begins with an ASCII character. -/
theorem isAscii_of_faults_eq_nil {source : String} (h : (ofSource source).faults = []) :
    ∀ ch ∈ source.toList.head?, IsAscii ch := by
  intro ch hch
  obtain ⟨tail, htail⟩ := List.head?_eq_some_iff.mp hch
  cases hclusters : Cluster.segment source.toList with
  | nil =>
    have hflat := Cluster.flatten_segment source.toList
    rw [hclusters, htail] at hflat
    cases hflat
  | cons c rest =>
    -- The first lexeme is no fault, and its first cluster is the first of the source.
    have htaken := Lexeme.taken_next c rest
    have hlabel : ∀ cause, (Lexeme.next c rest).1.label ≠ .fault cause := by
      intro cause hfault
      have hmem : (Lexeme.next c rest).1 ∈ Lexeme.all (c :: rest) := by
        rw [Lexeme.all]
        exact List.mem_cons_self
      obtain ⟨f, hf, -⟩ := exists_fault_of_label hmem hfault
      rw [← hclusters] at hf
      exact absurd hf (List.eq_nil_iff_forall_not_mem.mp h f)
    obtain ⟨c', hc', hascii⟩ := htaken.beginsAscii hlabel
    obtain ⟨body, hbody⟩ := List.head?_eq_some_iff.mp hc'
    cases c' with
    | nil => cases hascii
    | cons first chars =>
      have hwhole := Lexeme.next_append c rest
      rw [hbody, List.cons_append] at hwhole
      have hflat := Cluster.flatten_segment source.toList
      rw [hclusters, ← hwhole, htail, List.flatten_cons, List.cons_append] at hflat
      rw [← (List.cons.inj hflat).1]
      exact hascii

/-- The clusters of a source in parentheses, by clusters that scan like the source. -/
theorem exists_segment_parenthesized {source : String} (h : (ofSource source).faults = []) :
    ∃ cs n, Lexeme.isNewline n = true ∧ ofSource source = ofClusters cs ∧
      Cluster.segment (parenthesized source).toList = ['('] :: (cs ++ n :: [[')']]) := by
  obtain ⟨cs, n, hn, hjoined, hsource⟩ := exists_seam source.toList [')']
  refine ⟨cs, n, hn, ?_, ?_⟩
  · -- A carriage return at the end of the source is a blank.
    rcases hsource with hsource | hsource
    · rw [ofSource, hsource]
    · rw [ofSource, hsource]
      exact ofLexemes_append_blank rfl 1 cs
  · -- What follows the opening parenthesis is ASCII, since a source without faults begins so.
    have hparen : Cluster.segment [')'] = [[')']] := by decide
    have hascii : ∀ ch ∈ (source.toList ++ '\n' :: [')']).head?, IsAscii ch := by
      cases hlist : source.toList with
      | nil =>
        intro ch hch
        obtain rfl : '\n' = ch := by simpa using hch
        decide
      | cons ch' tail =>
        have hfirst := isAscii_of_faults_eq_nil h
        rw [hlist] at hfirst
        exact hfirst
    rw [toList_parenthesized, ← hparen, ← hjoined]
    exact Cluster.segment_cons_of_ascii (by decide) hascii

/-- The tokens of a source in parentheses are those of the source, on the same lines, between the
parentheses. -/
theorem allTokens_parenthesized {source : String} (h : (ofSource source).faults = []) :
    ∃ line, (ofSource (parenthesized source)).allTokens =
        (⟨.leftParen, "(", none, 1⟩ :: (ofSource source).tokens ++
          [⟨.rightParen, ")", none, line⟩]) ++ [.eof line] ∧
      (ofSource (parenthesized source)).faults = [] := by
  obtain ⟨cs, n, hn, hsource, hclusters⟩ := exists_segment_parenthesized h
  rw [hsource] at h ⊢
  have hopen : ∀ rest, Lexeme.all (['('] :: rest) =
      ⟨.token .leftParen none, [['(']]⟩ :: Lexeme.all rest :=
    fun rest => (Lexeme.Taken.punctuation rfl).all_eq
  have hclose : ofClusters [[')']] = ⟨[⟨.rightParen, ")", none, 1⟩], [], 1⟩ := by
    have htaken : Lexeme.Taken ⟨.token .rightParen none, [[')']]⟩ [] := .punctuation rfl
    rw [ofClusters, htaken.all_body]
    rfl
  -- A source without faults has all its strings closed, so that the line end behind it is one.
  have hclosed : ∀ f ∈ (ofClusters cs).faults, f.cause ≠ .unterminatedString := by simp [h]
  obtain ⟨htokens, hfaults⟩ := ofClusters_append_newline hclosed hn [[')']]
  rw [h, hclose] at hfaults
  rw [hclose] at htokens
  have hall : ofSource (parenthesized source) =
      { ofClusters (cs ++ n :: [[')']]) with
        tokens := ⟨.leftParen, "(", none, 1⟩ :: (ofClusters (cs ++ n :: [[')']])).tokens } := by
    rw [ofSource, hclusters, ofClusters, hopen]
    rfl
  refine ⟨1 + (ofClusters cs).eof.line, ?_, ?_⟩
  · rw [hall, allTokens, List.append_assoc, List.cons_append, List.cons_append]
    exact congrArg _ htokens
  · rw [hall]
    exact hfaults

end Scan

/-! ## Programs -/

namespace Program

open Grammar

/-- A tree that the parser found with nothing left over is derived from all the tokens. -/
theorem derives_of_parse {source : String} {e : Expr} {rest : Parser}
    (hparse : (Parser.ofTokens (Scan.ofSource source).allTokens).parse = (.ok e, rest))
    (hend : rest.pending = []) : Derives expression (Scan.ofSource source).tokens e := by
  obtain ⟨word, hword, hd, -, -⟩ :=
    (Parser.parse_eq_ok_iff (Parser.kind_eof_ofTokens _)).mp
      ⟨congrArg Prod.fst hparse, congrArg (fun p => p.2.pending) hparse⟩
  rw [hend, List.append_nil, pending_allTokens] at hword
  rwa [hword]

/-- The parser finds the grouping of a tree in the parenthesized source of the tree, if there is
room for one more. -/
theorem tree?_parenthesized {source : String} {e : Expr}
    (hfaults : (Scan.ofSource source).faults = [])
    (hd : Derives expression (Scan.ofSource source).tokens e)
    (hroom : e.nesting ≤ maxNesting - 1) :
    tree? (parenthesized source) = some (.grouping e) := by
  obtain ⟨line, htokens, hclean⟩ := Scan.allTokens_parenthesized hfaults
  have hgrouping : Derives expression
      (⟨.leftParen, "(", none, 1⟩ :: (Scan.ofSource source).tokens ++
        [⟨.rightParen, ")", none, line⟩]) (.grouping e) :=
    (Derives.primary (.grouping rfl hd rfl)).chain_of_unary .equality
  -- The scan ends with its end, and what comes before it is the word of the grouping.
  rw [← (List.append_inj' htokens rfl).1] at hgrouping
  refine tree?_of_derives hclean hgrouping ?_
  rw [Expr.nesting_grouping]
  unfold maxNesting at hroom ⊢
  omega

end Program

open Program in
/-- A program that is parsed to its end, with room for one more grouping, returns and reports the
same in parentheses, and its tree is shown in a group. -/
theorem program_in_parentheses {source : String} {e : Expr} {rest : Parser} (sink : Sink)
    (hclean : ∀ r ∈ ((Journal.new sink).run source).2.reports, r.isStatic = false)
    (hparse : (Parser.ofTokens (Scan.ofSource source).allTokens).parse = (.ok e, rest))
    (hend : rest.pending = []) (hroom : e.nesting ≤ maxNesting - 1) :
    (Journal.new sink).run (parenthesized source) = (Journal.new sink).run source ∧
      ∃ text, (Journal.new sink).showTree source = (some text, .new sink) ∧
        (Journal.new sink).showTree (parenthesized source) =
          (some ("(group " ++ text ++ ")"), .new sink) := by
  have hstatic : staticReports source = [] := by
    rw [run_new, Journal.reports_new_addAll] at hclean
    rw [List.eq_nil_iff_forall_not_mem]
    intro r hr
    have hfalse := hclean r (List.mem_append_left _ hr)
    rw [isStatic_of_mem_staticReports hr] at hfalse
    cases hfalse
  have hfaults : (Scan.ofSource source).faults = [] := by
    unfold staticReports at hstatic
    exact List.map_eq_nil_iff.mp (List.append_eq_nil_iff.mp hstatic).1
  have htree : tree? source = some e := by
    rw [tree?, hparse, hfaults]
    rfl
  have htree' := tree?_parenthesized hfaults (derives_of_parse hparse hend) hroom
  refine ⟨?_, e.render, showTree_of_tree? htree sink, showTree_of_tree? htree' sink⟩
  obtain ⟨hvalue, hfault⟩ := run_of_tree? htree sink
  obtain ⟨hvalue', hfault'⟩ := run_of_tree? htree' sink
  -- A grouping is evaluated as what it encloses.
  cases heval : e.eval with
  | ok v => rw [hvalue v heval, hvalue' v heval]
  | error f => rw [hfault f heval, hfault' f heval]

/-- A carriage return at the end of a comment, and a quote in it. -/
theorem program_in_parentheses_comment :
    (Journal.new .none).run (parenthesized "-nil // \"\r") =
        (none, (Journal.new .none).add (.runtime ⟨.operandMustBeNumber, ⟨.minus, "-", none, 1⟩⟩)) ∧
      (Journal.new .none).showTree (parenthesized "-nil // \"\r") =
        (some "(group (- nil))", .new .none) := by
  have hparse : (Parser.ofTokens (Scan.ofSource "-nil // \"\r").allTokens).parse =
      (.ok (.unary ⟨.minus, "-", none, 1⟩ (.literal .nil)), ⟨[], .eof 1⟩) := by cbv
  have htree : Program.tree? "-nil // \"\r" =
      some (.unary ⟨.minus, "-", none, 1⟩ (.literal .nil)) := by cbv
  have hrun := (Program.run_of_tree? htree .none).2 _ rfl
  have hclean : ∀ r ∈ ((Journal.new .none).run "-nil // \"\r").2.reports, r.isStatic = false := by
    rw [hrun]
    decide
  obtain ⟨hsame, text, htext, hgroup⟩ :=
    program_in_parentheses .none hclean hparse rfl (by decide)
  rw [Program.showTree_of_tree? htree] at htext
  obtain ⟨htext, -⟩ := Prod.mk.inj htext
  rw [← Option.some.inj htext] at hgroup
  exact ⟨hsame.trans hrun, hgroup⟩

end LoxCalc
