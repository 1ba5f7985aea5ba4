import LoxCalc.Unicode.BreakClass

/-!
# Extended grapheme clusters

A text is a sequence of user-perceived characters, its extended grapheme clusters. `Cluster.joins`
decides from the cluster so far whether the next character still belongs to it, by the rules GB3 to
GB13 of UAX #29 with GB9a, GB9b and GB9c; `segment` cuts a text wherever it does not.

No rule looks back further than the start of the current cluster: the characters a rule names stand
in one cluster by the rules before it. So a boundary forgets everything before it, and the two sides
of it are segmented independently.
-/

namespace LoxCalc.Unicode

/-- One user-perceived character: the characters it is made of. -/
abbrev Cluster := List Char

namespace Cluster

/-- Jamo and syllables that form one Hangul syllable (GB6 to GB8). -/
def hangulJoins : BreakClass → BreakClass → Bool
  | .leadingJamo, .leadingJamo | .leadingJamo, .vowelJamo
  | .leadingJamo, .openSyllable | .leadingJamo, .closedSyllable => true
  | .openSyllable, .vowelJamo | .openSyllable, .trailingJamo
  | .vowelJamo, .vowelJamo | .vowelJamo, .trailingJamo => true
  | .closedSyllable, .trailingJamo | .trailingJamo, .trailingJamo => true
  | _, _ => false

/-- Whether the classes, nearest first, end in a consonant followed by marks with a linker among
them (GB9c). `linked` says that a linker has been met already. -/
def conjunctOpen (linked : Bool) : List BreakClass → Bool
  | .linker :: earlier => conjunctOpen true earlier
  | .mark :: earlier | .joiner :: earlier => conjunctOpen linked earlier
  | .consonant :: _ => linked
  | _ => false

/-- Whether the classes, nearest first, end in a pictograph, marks and a joiner (GB11). -/
def pictographOpen : List BreakClass → Bool
  | .joiner :: earlier => (earlier.dropWhile BreakClass.isMark).head? == some .pictograph
  | _ => false

/-- Whether the classes, nearest first, end in an odd number of flag halves (GB12 and GB13). -/
def flagOpen (before : List BreakClass) : Bool :=
  (before.takeWhile (· == .regional)).length % 2 == 1

/-- Whether a character of class `next` belongs to the cluster whose characters have the classes
`before`, nearest first. -/
def joins (before : List BreakClass) (next : BreakClass) : Bool :=
  match before with
  | [] => false
  | last :: _ =>
    if last = .carriageReturn ∧ next = .lineFeed then true
    else if last.isControl || next.isControl then false
    else if hangulJoins last next || next.continues || last = .prepend then true
    else match next with
      | .consonant => conjunctOpen false before
      | .pictograph => pictographOpen before
      | .regional => flagOpen before
      | _ => false

/-- The clusters of a text whose first cluster has begun with the characters `current` of the
classes `before`, both nearest first. -/
def segmentFrom (current : List Char) (before : List BreakClass) : List Char → List Cluster
  | [] => [current.reverse]
  | c :: rest =>
    let next := BreakClass.ofChar c
    if joins before next then segmentFrom (c :: current) (next :: before) rest
    else current.reverse :: segmentFrom [c] [next] rest

/-- The clusters of a text. -/
def segment : List Char → List Cluster
  | [] => []
  | c :: rest => segmentFrom [c] [BreakClass.ofChar c] rest

/-- Segmentation loses and adds nothing, from within a cluster. -/
theorem flatten_segmentFrom (current : List Char) (before : List BreakClass) (cs : List Char) :
    (segmentFrom current before cs).flatten = current.reverse ++ cs := by
  induction cs generalizing current before with
  | nil => simp [segmentFrom]
  | cons c rest ih =>
    simp only [segmentFrom]
    split <;> simp [ih]

/-- The clusters of a text concatenate to it. -/
@[simp]
theorem flatten_segment (cs : List Char) : (segment cs).flatten = cs := by
  cases cs with
  | nil => rfl
  | cons c rest => simp [segment, flatten_segmentFrom]

/-- No cluster is empty, from within a cluster. -/
theorem ne_nil_of_mem_segmentFrom {current : List Char} (before : List BreakClass) (cs : List Char)
    (h : current ≠ []) : ∀ c ∈ segmentFrom current before cs, c ≠ [] := by
  induction cs generalizing current before with
  | nil => simpa [segmentFrom] using h
  | cons c rest ih =>
    simp only [segmentFrom]
    split
    · exact ih _ (List.cons_ne_nil c current)
    · simpa [h] using ih [BreakClass.ofChar c] (List.cons_ne_nil c [])

/-- No cluster of a text is empty. -/
theorem ne_nil_of_mem_segment (cs : List Char) : ∀ c ∈ segment cs, c ≠ [] := by
  cases cs with
  | nil => simp [segment]
  | cons c rest => exact ne_nil_of_mem_segmentFrom _ rest (List.cons_ne_nil c [])

end Cluster

end LoxCalc.Unicode
