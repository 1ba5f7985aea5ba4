import LoxCalc.Unicode.Cluster
import Mathlib.Tactic.ByContra

/-!
# Cluster boundaries at controls

A control joins nothing before or behind it, save a carriage return the line feed behind it
(`joins_cases`). So there is a boundary on both sides of it, and a boundary forgets what stands
before it: the clusters of two texts that meet in one are those of the first and those of the second
(`segment_append_of_break`), and clusters that follow one another in a text are those of what they
cover (`segment_of_infix`). In particular a line feed is a cluster by itself, or with the carriage
return before it (`eq_of_lineFeed_mem`).
-/

namespace LoxCalc.Unicode

namespace BreakClass

/-- What neither branch is in, neither is their choice. -/
theorem ite_not_mem {p : Prop} [Decidable p] {a b : BreakClass} {s : List BreakClass}
    (ha : a ∉ s) (hb : b ∉ s) : (if p then a else b) ∉ s := by
  split
  · exact ha
  · exact hb

/-- Above ASCII there is neither a line feed nor a carriage return. -/
theorem ofNonAscii_not_line (point : Nat) : ofNonAscii point ∉ [lineFeed, carriageReturn] := by
  unfold ofNonAscii
  repeat' apply ite_not_mem
  all_goals decide

/-- Only the two characters that end lines have the classes that do. -/
theorem ofChar_not_line {c : Char} (hcr : c ≠ '\r') (hlf : c ≠ '\n') :
    ofChar c ∉ [lineFeed, carriageReturn] := by
  rw [ofChar, if_neg hcr, if_neg hlf]
  split
  · decide
  · split
    · decide
    · exact ofNonAscii_not_line _

/-- The class of the line feed is its own. -/
theorem ofChar_eq_lineFeed_iff {c : Char} : ofChar c = lineFeed ↔ c = '\n' := by
  constructor
  · intro h
    by_contra hlf
    have hcr : c ≠ '\r' := fun hcr => absurd h (by rw [hcr]; decide)
    exact ofChar_not_line hcr hlf (by simp [h])
  · rintro rfl
    rfl

/-- The class of the carriage return is its own. -/
theorem ofChar_eq_carriageReturn_iff {c : Char} : ofChar c = carriageReturn ↔ c = '\r' := by
  constructor
  · intro h
    by_contra hcr
    have hlf : c ≠ '\n' := fun hlf => absurd h (by rw [hlf]; decide)
    exact ofChar_not_line hcr hlf (by simp [h])
  · rintro rfl
    rfl

end BreakClass

namespace Cluster

open BreakClass (ofChar)

/-- A character joins a cluster as the line feed behind a carriage return, or without a control on
either side. -/
theorem joins_cases {last next : BreakClass} {earlier : List BreakClass}
    (h : joins (last :: earlier) next = true) :
    (last = .carriageReturn ∧ next = .lineFeed) ∨
      (last.isControl = false ∧ next.isControl = false) := by
  unfold joins at h
  dsimp only at h
  split at h
  · next hcrlf => exact .inl hcrlf
  · split at h
    · cases h
    · next hcontrol => simpa using Or.inr hcontrol

/-- Where a control stands on either side there is a boundary, unless the two end a line. -/
theorem joins_eq_false {last next : BreakClass}
    (hcontrol : last.isControl = true ∨ next.isControl = true)
    (hline : ¬(last = .carriageReturn ∧ next = .lineFeed)) (earlier : List BreakClass) :
    joins (last :: earlier) next = false := by
  cases hjoins : joins (last :: earlier) next with
  | false => rfl
  | true =>
    rcases joins_cases hjoins with h | ⟨hlast, hnext⟩
    · exact absurd h hline
    · simp [hlast, hnext] at hcontrol

/-- A boundary splits the clusters, from within a cluster. -/
theorem segmentFrom_append_of_break {x y : Char}
    (hbreak : ∀ earlier, joins (ofChar x :: earlier) (ofChar y) = false) (a b current : List Char)
    (before : List BreakClass) :
    segmentFrom current before (a ++ x :: y :: b) =
      segmentFrom current before (a ++ [x]) ++ segmentFrom [y] [ofChar y] b := by
  induction a generalizing current before with
  | nil =>
    simp only [List.nil_append, segmentFrom, hbreak]
    split <;> simp
  | cons z a ih =>
    simp only [List.cons_append, segmentFrom]
    split <;> simp [ih]

/-- A boundary splits the clusters of a text into those of its two sides. -/
theorem segment_append_of_break {x y : Char}
    (hbreak : ∀ earlier, joins (ofChar x :: earlier) (ofChar y) = false) (a b : List Char) :
    segment (a ++ x :: y :: b) = segment (a ++ [x]) ++ segment (y :: b) := by
  cases a with
  | nil => simp [segment, segmentFrom, hbreak]
  | cons z a => exact segmentFrom_append_of_break hbreak a b [z] [ofChar z]

/-- A text that begins with a boundary is segmented by itself, whatever stands before it. -/
theorem segment_append {a : List Char} {y : Char}
    (hbreak : ∀ x ∈ a.getLast?, ∀ earlier, joins (ofChar x :: earlier) (ofChar y) = false)
    (b : List Char) : segment (a ++ y :: b) = segment a ++ segment (y :: b) := by
  rcases List.eq_nil_or_concat a with rfl | ⟨front, x, rfl⟩
  · rfl
  · rw [List.concat_eq_append, List.append_assoc, List.singleton_append]
    exact segment_append_of_break (hbreak x (by simp)) front b

/-- What stands behind the first cluster is segmented by itself. -/
theorem segment_of_segmentFrom_eq_cons {current : List Char} {before : List BreakClass}
    {cs : List Char} {c : Cluster} {more : List Cluster}
    (h : segmentFrom current before cs = c :: more) : segment more.flatten = more := by
  induction cs generalizing current before with
  | nil =>
    obtain ⟨-, rfl⟩ := List.cons.inj h
    rfl
  | cons x cs ih =>
    rw [segmentFrom] at h
    split at h
    · exact ih h
    · -- The next cluster is under way at the boundary, with nothing before it.
      obtain ⟨-, rfl⟩ := List.cons.inj h
      rw [flatten_segmentFrom]
      rfl

/-- The clusters behind any others are those of their text. -/
theorem segment_of_suffix {text : List Char} {front cs : List Cluster}
    (h : segment text = front ++ cs) : segment cs.flatten = cs := by
  induction front generalizing text with
  | nil =>
    rw [List.nil_append] at h
    rw [← h, flatten_segment]
  | cons c front ih =>
    cases text with
    | nil => cases h
    | cons x text => exact ih (segment_of_segmentFrom_eq_cons h)

/-- The first clusters, from within one, are those of the text up to their end. -/
theorem exists_segmentFrom_of_eq_append {current : List Char} {before : List BreakClass}
    {text : List Char} {cs more : List Cluster} (h : segmentFrom current before text = cs ++ more)
    (hne : cs ≠ []) : ∃ upto, cs.flatten = current.reverse ++ upto ∧
      segmentFrom current before upto = cs := by
  induction text generalizing current before cs with
  | nil =>
    obtain ⟨c, cs, rfl⟩ := List.exists_cons_of_ne_nil hne
    obtain ⟨rfl, hnil⟩ := List.cons.inj h
    obtain ⟨rfl, -⟩ := List.append_eq_nil_iff.mp hnil.symm
    exact ⟨[], by simp, rfl⟩
  | cons x text ih =>
    rw [segmentFrom] at h
    -- Where there is no boundary the cluster goes on, and else the next one begins.
    split at h
    · next hjoins =>
      obtain ⟨upto, hflat, hsegment⟩ := ih h hne
      refine ⟨x :: upto, by simpa using hflat, ?_⟩
      rw [segmentFrom, if_pos hjoins]
      exact hsegment
    · next hbreak =>
      obtain ⟨c, cs, rfl⟩ := List.exists_cons_of_ne_nil hne
      obtain ⟨rfl, hrest⟩ := List.cons.inj h
      by_cases hcs : cs = []
      · exact ⟨[], by simp [hcs], by rw [hcs]; rfl⟩
      · obtain ⟨upto, hflat, hsegment⟩ := ih hrest hcs
        refine ⟨x :: upto, by simpa using hflat, ?_⟩
        rw [segmentFrom, if_neg hbreak]
        exact congrArg _ hsegment

/-- Clusters of a text that follow one another are the clusters of their own text. -/
theorem segment_of_infix {text : List Char} {cs : List Cluster} (h : cs <:+: segment text) :
    segment cs.flatten = cs := by
  obtain ⟨front, more, hsegment⟩ := h
  rw [List.append_assoc] at hsegment
  have hsuffix := segment_of_suffix hsegment.symm
  by_cases hcs : cs = []
  · rw [hcs]
    rfl
  · -- What the clusters spell is not nothing unless they are none.
    cases htext : (cs ++ more).flatten with
    | nil =>
      rw [htext] at hsuffix
      exact absurd (List.append_eq_nil_iff.mp hsuffix.symm).1 hcs
    | cons x text =>
      rw [htext] at hsuffix
      obtain ⟨upto, hflat, hupto⟩ := exists_segmentFrom_of_eq_append hsuffix hcs
      rw [hflat]
      exact hupto

/-- There is a boundary behind every line feed. -/
theorem segment_append_lineFeed (a b : List Char) :
    segment (a ++ '\n' :: b) = segment (a ++ ['\n']) ++ segment b := by
  cases b with
  | nil => simp [segment]
  | cons y b =>
    have hbreak : ∀ x ∈ (a ++ ['\n']).getLast?, ∀ earlier,
        joins (ofChar x :: earlier) (ofChar y) = false := by
      intro x hx
      obtain rfl : '\n' = x := by simpa using hx
      exact joins_eq_false (.inl rfl) fun hline => absurd hline.1 (by decide)
    rw [← segment_append hbreak, List.append_assoc, List.singleton_append]

/-- There is a boundary before a carriage return, and before a line feed that is not behind one. -/
theorem segment_append_line {a : List Char} {y : Char}
    (hy : y = '\r' ∨ (y = '\n' ∧ a.getLast? ≠ some '\r')) (b : List Char) :
    segment (a ++ y :: b) = segment a ++ segment (y :: b) := by
  refine segment_append (fun x hx => joins_eq_false (.inr ?_) ?_) b
  · rcases hy with rfl | ⟨rfl, -⟩ <;> rfl
  · rintro ⟨hcr, hlf⟩
    rw [BreakClass.ofChar_eq_carriageReturn_iff] at hcr
    rw [BreakClass.ofChar_eq_lineFeed_iff] at hlf
    rcases hy with rfl | ⟨-, hlast⟩
    · exact absurd hlf (by decide)
    · exact hlast (hcr ▸ hx)

/-- What the characters of a cluster under way can be, nearest first: no controls, one character, or
the end of a line. -/
def ControlsApart (current : List Char) : Prop :=
  (∀ ch ∈ current, (ofChar ch).isControl = false) ∨ (∃ ch, current = [ch]) ∨ current = ['\n', '\r']

/-- A character that joins keeps controls apart. -/
theorem ControlsApart.cons {c x : Char} {current : List Char} (h : ControlsApart (x :: current))
    (hjoins : joins ((x :: current).map ofChar) (ofChar c) = true) :
    ControlsApart (c :: x :: current) := by
  -- A line feed joins a carriage return, and nothing else joins or is joined by a control.
  rcases joins_cases hjoins with ⟨hx, hc⟩ | ⟨hx, hc⟩
  · rw [BreakClass.ofChar_eq_carriageReturn_iff] at hx
    rw [BreakClass.ofChar_eq_lineFeed_iff] at hc
    subst hx hc
    rcases h with h | ⟨ch, h⟩ | h
    · exact absurd (h '\r' List.mem_cons_self) (by decide)
    · obtain ⟨-, rfl⟩ := List.cons.inj h
      exact .inr (.inr rfl)
    · exact absurd (List.cons.inj h).1 (by decide)
  · rcases h with h | ⟨ch, h⟩ | h
    · exact .inl (List.forall_mem_cons.mpr ⟨hc, h⟩)
    · obtain ⟨-, rfl⟩ := List.cons.inj h
      exact .inl (List.forall_mem_cons.mpr ⟨hc, List.forall_mem_cons.mpr ⟨hx, by simp⟩⟩)
    · obtain ⟨rfl, -⟩ := List.cons.inj h
      exact absurd hx (by decide)

/-- Clusters keep controls apart, from within a cluster. -/
theorem controlsApart_of_mem_segmentFrom {x : Char} {current cs : List Char}
    (h : ControlsApart (x :: current)) :
    ∀ c ∈ segmentFrom (x :: current) ((x :: current).map ofChar) cs, ControlsApart c.reverse := by
  induction cs generalizing x current with
  | nil => simpa [segmentFrom] using h
  | cons y cs ih =>
    rw [segmentFrom]
    split
    · next hjoins => exact ih (h.cons hjoins)
    · exact List.forall_mem_cons.mpr ⟨by simpa using h, ih (.inr (.inl ⟨y, rfl⟩))⟩

/-- A line feed is a cluster by itself, or with a carriage return before it. -/
theorem eq_of_lineFeed_mem {cs : List Char} {c : Cluster} (h : c ∈ segment cs) (hlf : '\n' ∈ c) :
    c = ['\n'] ∨ c = ['\r', '\n'] := by
  cases cs with
  | nil => simp [segment] at h
  | cons x cs =>
    have hapart : ControlsApart c.reverse :=
      controlsApart_of_mem_segmentFrom (.inr (.inl ⟨x, rfl⟩)) c h
    -- A cluster with a line feed has a control, and such are one character or the pair.
    rcases hapart with hnone | ⟨ch, hone⟩ | hline
    · exact absurd (hnone '\n' (List.mem_reverse.mpr hlf)) (by decide)
    · rw [List.reverse_eq_iff] at hone
      subst hone
      obtain rfl : '\n' = ch := by simpa using hlf
      exact .inl rfl
    · rw [List.reverse_eq_iff] at hline
      exact .inr hline

end Cluster

end LoxCalc.Unicode
