import LoxCalc.Proofs.Scan.Spaced
import LoxCalc.Proofs.Session.Outcome

/-!
# Sums of string literals

A sum of string literals runs to its texts one after another, however many they are and whatever
they hold (`run_sum`). All that is asked of a text is that the two quotes around it delimit it
(`Quotable`).

Literals and plus signs are tokens by themselves, so that the sum is scanned into just them. The
chain of the tokens grows by one sign and one literal at a time, and each step adds a text behind
the value that the chain has (`SumsTo.snoc`). No step nests, so that the length of the chain does
not count against the room for nesting.
-/

namespace LoxCalc

open Unicode (Cluster)
open Grammar (Derives)

/-! ## Literals and plus signs -/

/-- A text between quotes. -/
def quoted (text : String) : String :=
  "\"" ++ text ++ "\""

/-- The quotes around a text are clusters of their own, and no other cluster is a quote. -/
def Quotable (text : String) : Prop :=
  ∃ inner, Cluster.segment (quoted text).toList = Lexeme.quote :: inner ++ [Lexeme.quote] ∧
    Lexeme.quote ∉ inner

/-- A sum of texts, as a program. -/
def sumOf (texts : List String) : String :=
  " + ".intercalate (texts.map quoted)

namespace Lexeme

/-- The string literal of a text. -/
def stringOf (text : String) : Lexeme :=
  ⟨.token .string (some (.string text)), Cluster.segment (quoted text).toList⟩

/-- A plus sign. -/
def plus : Lexeme :=
  ⟨.token .plus none, [['+']]⟩

/-- The string literals of texts, each behind a plus sign. -/
def added (texts : List String) : List Lexeme :=
  texts.flatMap fun text => [plus, stringOf text]

/-- The string literal of a text, and those of others added to it. -/
def summands (text : String) (texts : List String) : List Lexeme :=
  stringOf text :: added texts

/-- The literal is spelled as the text in quotes. -/
theorem flatten_body_stringOf (text : String) :
    (stringOf text).body.flatten = (quoted text).toList :=
  Cluster.flatten_segment _

/-- What stands between the quotes is the text, and no quote ends the literal before its last. -/
theorem standalone_stringOf {text : String} (h : Quotable text) : (stringOf text).Standalone := by
  obtain ⟨inner, hsegment, hinner⟩ := h
  have hflat : inner.flatten = text.toList := by
    have hwhole := Cluster.flatten_segment (quoted text).toList
    rw [hsegment] at hwhole
    simpa [quoted, quote] using hwhole
  refine ⟨⟨_, _, rfl⟩, ?_, ?_⟩
  · have htaken : Taken ⟨.token .string (some (.string (String.ofList inner.flatten))),
        quote :: inner ++ [quote]⟩ [] := .string hinner
    rwa [hflat, String.ofList_toList, ← hsegment] at htaken
  · rw [flatten_body_stringOf]
    rfl

/-- Literals and signs can all be taken by themselves. -/
theorem standalone_summands {text : String} {texts : List String}
    (h : ∀ text' ∈ text :: texts, Quotable text') :
    ∀ l ∈ summands text texts, l.Standalone := by
  obtain ⟨htext, htexts⟩ := List.forall_mem_cons.mp h
  refine List.forall_mem_cons.mpr ⟨standalone_stringOf htext, fun l hl => ?_⟩
  obtain ⟨text', htext', hl⟩ := List.mem_flatMap.mp hl
  rcases List.mem_pair.mp hl with rfl | rfl
  · exact standalone_of_punctuation rfl
  · exact standalone_stringOf (htexts text' htext')

/-- A sum is its literals and signs with blanks between them. -/
theorem spaced_summands (text : String) (texts : List String) :
    spaced (summands text texts) = sumOf (text :: texts) := by
  apply String.toList_inj.mp
  -- Each further text puts a sign and a literal behind the first one, which is arbitrary in the
  -- induction.
  induction texts generalizing text with
  | nil => simp [spaced, summands, added, sumOf, Lexeme.text, flatten_body_stringOf]
  | cons text' texts ih =>
    have hsum : sumOf (text :: text' :: texts) =
        quoted text ++ " + " ++ sumOf (text' :: texts) := by
      simp [sumOf, String.intercalate_cons_cons]
    have hsummands : summands text (text' :: texts) =
        stringOf text :: plus :: summands text' texts := rfl
    have hmore : summands text' texts ≠ [] := List.cons_ne_nil _ _
    rw [hsummands, toList_spaced_cons _ (List.cons_ne_nil _ _), toList_spaced_cons _ hmore,
      ih text', hsum, flatten_body_stringOf]
    simp [plus]

end Lexeme

/-! ## The chain of a sum -/

/-- A chain of terms that is evaluated to a text and does not nest. -/
structure SumsTo (word : List Token) (e : Expr) (text : String) : Prop where
  /-- It is a chain of terms. -/
  derives : Derives (.chain .term) word e
  /-- It has neither a grouping nor a prefix operation. -/
  nesting : e.nesting = 0
  /-- Its value is the text. -/
  eval : e.eval = .ok (.string text)

/-- A string literal alone is a chain of every level. -/
theorem derives_string {t : Token} {text : String} (hkind : t.kind = .string)
    (hliteral : t.literal = some (.string text)) (level : Level) :
    Derives (.chain level) [t] (.literal (.string text)) :=
  Derives.chain_of_unary (.primary (.carried (.inr hkind) hliteral)) level

/-- A plus sign and one more literal put its text behind the others. -/
theorem SumsTo.snoc {word : List Token} {e : Expr} {text text' : String} (h : SumsTo word e text)
    {sign t : Token} (hsign : sign.kind = .plus) (hkind : t.kind = .string)
    (hliteral : t.literal = some (.string text')) :
    SumsTo (word ++ [sign, t]) (.binary e sign (.literal (.string text'))) (text ++ text') := by
  have hoperand := derives_string hkind hliteral .factor
  have hoperator : sign.kind ∈ Grammar.operators .term := by
    rw [hsign]
    decide
  -- The sum so far is the left operand, so that texts are put together in their order.
  refine ⟨.binary h.derives hoperator hoperand, ?_, ?_⟩
  · rw [Expr.nesting_binary, h.nesting, Expr.nesting_literal, Nat.max_self]
  · have happly : Expr.applyBinary sign (.string text) (.string text') =
        .ok (.string (text ++ text')) := by
      simp only [Expr.applyBinary, hsign, Expr.applyPlus]
    rw [Expr.eval, h.eval, Expr.eval]
    exact happly

/-- Any number of them put their texts behind the others. -/
theorem SumsTo.append {word : List Token} {e : Expr} {text : String} (h : SumsTo word e text)
    {texts : List String} {ts : List Token}
    (hts : ts.map Token.spelled = (Lexeme.added texts).filterMap Lexeme.token?) :
    ∃ e', SumsTo (word ++ ts) e' (text ++ String.join texts) := by
  -- The induction is on the texts to come; the chain so far carries those before them.
  induction texts generalizing word e text ts with
  | nil =>
    obtain rfl := List.map_eq_nil_iff.mp hts
    exact ⟨e, by simpa using h⟩
  | cons text' texts ih =>
    obtain ⟨sign, ts, rfl, hsign, hts⟩ := List.map_eq_cons_iff.mp hts
    obtain ⟨t, ts, rfl, ht, hts⟩ := List.map_eq_cons_iff.mp hts
    have hsnoc := h.snoc (congrArg Prod.fst hsign) (congrArg Prod.fst ht)
      (congrArg (fun p => p.2.1) ht)
    obtain ⟨e', he'⟩ := ih hsnoc hts
    refine ⟨e', ?_⟩
    simpa [String.append_assoc] using he'

/-- The tokens of a sum are a chain that is evaluated to the texts one after another. -/
theorem exists_sumsTo (text : String) (texts : List String) {ts : List Token}
    (hts : ts.map Token.spelled = (Lexeme.summands text texts).filterMap Lexeme.token?) :
    ∃ e, SumsTo ts e (String.join (text :: texts)) := by
  obtain ⟨t, ts, rfl, ht, hts⟩ := List.map_eq_cons_iff.mp hts
  have hliteral := derives_string (congrArg Prod.fst ht) (congrArg (fun p => p.2.1) ht) .term
  have hsingle : SumsTo [t] (.literal (.string text)) text := ⟨hliteral, rfl, rfl⟩
  obtain ⟨e, he⟩ := hsingle.append hts
  refine ⟨e, ?_⟩
  simpa using he

/-- A sum of texts between quotes, any number of them but none, runs to the texts one after another
and reports nothing. -/
theorem run_sum {texts : List String} (hne : texts ≠ []) (h : ∀ text ∈ texts, Quotable text)
    (sink : Sink) :
    (Journal.new sink).run (sumOf texts) = (some (String.join texts), .new sink) := by
  obtain ⟨text, texts, rfl⟩ := List.exists_cons_of_ne_nil hne
  obtain ⟨htokens, hfaults⟩ := Scan.ofSource_spaced (Lexeme.standalone_summands h)
  rw [Lexeme.spaced_summands] at htokens hfaults
  obtain ⟨e, he⟩ := exists_sumsTo text texts htokens
  have hroom : e.nesting ≤ maxNesting := by
    rw [he.nesting]
    exact Nat.zero_le _
  have htree := Program.tree?_of_derives hfaults (.operand (.operand he.derives)) hroom
  exact (Program.run_of_tree? htree sink).1 _ he.eval

/-- A comment marker and a line end, a mark and a joined emoji, and no text at all. -/
theorem run_sum_comment_and_emoji :
    (Journal.new .none).run "\"// if\n\" + \"e\u0301👨\u200d👩\" + \"\"" =
      (some "// if\ne\u0301👨\u200d👩", .new .none) := by
  have hquotable : ∀ text ∈ ["// if\n", "e\u0301👨\u200d👩", ""], Quotable text := by
    simp only [List.forall_mem_cons]
    refine ⟨?comment, ?emoji, ?empty, List.forall_mem_nil _⟩
    case comment => exact ⟨[['/'], ['/'], [' '], ['i'], ['f'], ['\n']], by decide, by decide⟩
    case emoji =>
      -- The tables of characters are too large for the elaborator to walk.
      exact ⟨[['e', '\u0301'], ['👨', '\u200d', '👩']], by decide +kernel, by decide⟩
    case empty => exact ⟨[], by decide, by decide⟩
  exact run_sum (List.cons_ne_nil _ _) hquotable .none

end LoxCalc
