import LoxCalc.Proofs.Text.Lines

/-!
# Texts written line by line

`unlines` writes texts one after another, each with a line feed behind it. If no text ends in a
carriage return, reading the lines gives the texts back exactly where no text holds a line feed
(`lines_unlines_eq_iff`). A text with line feeds in it gives as many more lines
(`length_lines_unlines`), so that the number of lines alone tells.
-/

namespace LoxCalc.Text

/-- The text of lines, each with its end. -/
def unlines (texts : List String) : String :=
  String.join (texts.map (· ++ "\n"))

/-- No texts are written as nothing. -/
@[simp]
theorem unlines_nil : unlines [] = "" := rfl

/-- Texts are written one behind the other. -/
theorem unlines_append (texts texts' : List String) :
    unlines (texts ++ texts') = unlines texts ++ unlines texts' := by
  simp [unlines]

/-- Each text has a line feed behind it. -/
theorem toList_unlines_cons (text : String) (texts : List String) :
    (unlines (text :: texts)).toList = text.toList ++ '\n' :: (unlines texts).toList := by
  simp [unlines]

section Lines

variable {α : Type} [DecidableEq α] {lf cr : α}

/-- A line that ends in no carriage return is read up to its line feed, and then what follows. -/
theorem linesFrom_line {line : List α} (hlf : lf ∉ line) (hcr : line.getLast? ≠ some cr)
    (rest : List α) :
    linesFrom lf cr [] (line ++ lf :: rest) = line :: linesFrom lf cr [] rest := by
  have hreturn : dropReturn cr line.reverse = line.reverse := by
    cases hline : line.reverse with
    | nil => rfl
    | cons c earlier =>
      have hlast : line.getLast? = some c := by rw [← List.head?_reverse, hline, List.head?_cons]
      have hne : c ≠ cr := fun h => hcr (h ▸ hlast)
      rw [dropReturn, if_neg hne]
  rw [linesFrom_append_of_not_mem hlf, List.append_nil, linesFrom, if_pos rfl, hreturn,
    List.reverse_reverse]

/-- Every line feed ends a line. -/
theorem length_linesFrom_append (current symbols rest : List α) :
    (linesFrom lf cr current (symbols ++ lf :: rest)).length =
      symbols.count lf + 1 + (linesFrom lf cr [] rest).length := by
  -- Every line feed ends one line, whatever has begun before it.
  induction symbols generalizing current with
  | nil =>
    rw [List.nil_append, linesFrom, if_pos rfl, List.length_cons, List.count_nil]
    omega
  | cons c symbols ih =>
    rw [List.cons_append, linesFrom]
    split
    · next hc =>
      rw [List.length_cons, ih, hc, List.count_cons_self]
      omega
    · next hc => rw [ih, List.count_cons_of_ne hc]

/-- A line holds no line feed, and nothing that is not in the text. -/
theorem mem_of_mem_linesFrom {current symbols line : List α} (hcurrent : lf ∉ current)
    (h : line ∈ linesFrom lf cr current symbols) :
    lf ∉ line ∧ ∀ c ∈ line, c ∈ current ∨ c ∈ symbols := by
  induction symbols generalizing current with
  | nil =>
    rw [linesFrom] at h
    split at h
    · cases h
    · obtain rfl := List.mem_singleton.mp h
      simpa using hcurrent
  | cons c symbols ih =>
    rw [linesFrom] at h
    split at h
    · rcases List.mem_cons.mp h with rfl | h
      · -- The line that ends here is what had begun, without its carriage return.
        have hsub : dropReturn cr current ⊆ current := by
          cases current with
          | nil => exact List.Subset.refl _
          | cons d current =>
            rw [dropReturn]
            split
            · exact List.subset_cons_self d current
            · exact List.Subset.refl _
        simp only [List.mem_reverse]
        exact ⟨fun hmem => hcurrent (hsub hmem), fun d hd => .inl (hsub hd)⟩
      · obtain ⟨hlf, hmem⟩ := ih List.not_mem_nil h
        refine ⟨hlf, fun d hd => .inr ?_⟩
        rcases hmem d hd with hd | hd
        · cases hd
        · exact List.mem_cons_of_mem c hd
    · next hc =>
      obtain ⟨hlf, hmem⟩ := ih (by simpa [hcurrent] using Ne.symm hc) h
      refine ⟨hlf, fun d hd => ?_⟩
      rcases hmem d hd with hd | hd
      · rcases List.mem_cons.mp hd with rfl | hd
        · exact .inr List.mem_cons_self
        · exact .inl hd
      · exact .inr (List.mem_cons_of_mem c hd)

end Lines

/-- A line of a text holds no line feed, and no character that is not in the text. -/
theorem mem_of_mem_lines {text line : String} (h : line ∈ lines text) :
    '\n' ∉ line.toList ∧ ∀ c ∈ line.toList, c ∈ text.toList := by
  obtain ⟨symbols, hsymbols, rfl⟩ := List.mem_map.mp h
  rw [String.toList_ofList]
  simpa using mem_of_mem_linesFrom List.not_mem_nil hsymbols

/-- A line of bytes decodes to no line feed either. -/
theorem newline_notMem_of_mem_byteLines {bytes line : List UInt8} {text : String}
    (hline : line ∈ byteLines bytes) (htext : Utf8.decode? line = some text) :
    '\n' ∉ text.toList := by
  intro hmem
  have hbyte := (Utf8.decode?_eq_some_iff.mp htext).lineFeed_mem hmem
  exact (mem_of_mem_linesFrom List.not_mem_nil hline).1 hbyte

/-- There is a line for every text, and one more for every line feed in a text. -/
theorem length_lines_unlines (texts : List String) :
    (lines (unlines texts)).length = texts.length + (texts.flatMap String.toList).count '\n' := by
  rw [lines, List.length_map]
  induction texts with
  | nil => rfl
  | cons text texts ih =>
    rw [toList_unlines_cons, length_linesFrom_append, ih, List.flatMap_cons, List.count_append,
      List.length_cons]
    omega

/-- There are as many lines as texts exactly where no text holds a line feed. -/
theorem length_lines_unlines_eq_iff (texts : List String) :
    (lines (unlines texts)).length = texts.length ↔ ∀ text ∈ texts, '\n' ∉ text.toList := by
  rw [length_lines_unlines, Nat.add_eq_left, List.count_eq_zero, List.mem_flatMap]
  push Not
  rfl

/-- Texts without line feeds that end in no carriage return are the lines of what is written. -/
theorem lines_unlines {texts : List String} (hlf : ∀ text ∈ texts, '\n' ∉ text.toList)
    (hcr : ∀ text ∈ texts, text.toList.getLast? ≠ some '\r') : lines (unlines texts) = texts := by
  induction texts with
  | nil => rfl
  | cons text texts ih =>
    rw [List.forall_mem_cons] at hlf hcr
    have htexts := ih hlf.2 hcr.2
    rw [lines] at htexts ⊢
    rw [toList_unlines_cons, linesFrom_line hlf.1 hcr.1, List.map_cons, htexts,
      String.ofList_toList]

/-- Texts that end in no carriage return are the lines of what is written exactly where none holds a
line feed. -/
theorem lines_unlines_eq_iff {texts : List String}
    (hcr : ∀ text ∈ texts, text.toList.getLast? ≠ some '\r') :
    lines (unlines texts) = texts ↔ ∀ text ∈ texts, '\n' ∉ text.toList := by
  constructor
  · intro h
    rw [← length_lines_unlines_eq_iff, h]
  · exact fun hlf => lines_unlines hlf hcr

end LoxCalc.Text
