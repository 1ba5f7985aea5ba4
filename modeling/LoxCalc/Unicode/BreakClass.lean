import LoxCalc.Unicode.Properties

/-!
# The class of a character for cluster boundaries

Whether two neighbouring characters belong to one cluster depends only on the classes of the
characters up to them. The three properties involved (the break property, the pictographs and the
conjunct property) never disagree, so that one class per character carries all of them: pictographs
and conjunct consonants have no other property, and linkers are characters that continue a cluster.

Every ASCII character has its class by rule, before any table is consulted.
-/

namespace LoxCalc.Unicode

/-- What a character does to the cluster boundary before and after it. -/
inductive BreakClass where
  /-- A carriage return, which joins a line feed and nothing else. -/
  | carriageReturn
  /-- A line feed. -/
  | lineFeed
  /-- Any other control, which stands alone. -/
  | control
  /-- A mark that continues the cluster before it and may stand inside a conjunct. -/
  | mark
  /-- A mark that joins the consonants around it. -/
  | linker
  /-- The zero width non-joiner: it continues a cluster and ends a conjunct. -/
  | nonJoiner
  /-- The zero width joiner. -/
  | joiner
  /-- A mark with a width of its own. -/
  | spacingMark
  /-- A character that attaches to what follows it. -/
  | prepend
  /-- Half of a flag. -/
  | regional
  /-- A Hangul leading consonant. -/
  | leadingJamo
  /-- A Hangul vowel. -/
  | vowelJamo
  /-- A Hangul trailing consonant. -/
  | trailingJamo
  /-- A Hangul syllable without a trailing consonant. -/
  | openSyllable
  /-- A Hangul syllable with a trailing consonant. -/
  | closedSyllable
  /-- An extended pictograph. -/
  | pictograph
  /-- A consonant that can take part in a conjunct. -/
  | consonant
  /-- Any other character. -/
  | other
  deriving DecidableEq, Repr

/-- The class of a code point from U+0080 on. -/
def BreakClass.ofNonAscii (point : Nat) : BreakClass :=
  if point = 0x200C then .nonJoiner
  else if point = 0x200D then .joiner
  else if BreakData.controls.covers point then .control
  else if BreakData.linkers.covers point then .linker
  else if BreakData.continuing.covers point then .mark
  else if BreakData.spacingMarks.covers point then .spacingMark
  else if BreakData.prepends.covers point then .prepend
  else if 0x1F1E6 ≤ point ∧ point ≤ 0x1F1FF then .regional
  else if BreakData.leadingJamo.covers point then .leadingJamo
  else if BreakData.vowelJamo.covers point then .vowelJamo
  else if BreakData.trailingJamo.covers point then .trailingJamo
  else if 0xAC00 ≤ point ∧ point ≤ 0xD7A3 then
    if (point - 0xAC00) % 28 = 0 then .openSyllable else .closedSyllable
  else if BreakData.pictographs.covers point then .pictograph
  else if BreakData.consonants.covers point then .consonant
  else .other

/-- The class of a character. -/
def BreakClass.ofChar (c : Char) : BreakClass :=
  if c = '\r' then .carriageReturn
  else if c = '\n' then .lineFeed
  else if c.toNat < 0x20 ∨ c.toNat = 0x7F then .control
  else if c.toNat < 0x7F then .other
  else .ofNonAscii c.toNat

/-- A control of any kind: there is a boundary on both sides of it, save between a carriage return
and a line feed. -/
def BreakClass.isControl : BreakClass → Bool
  | .carriageReturn | .lineFeed | .control => true
  | _ => false

/-- A character that continues whatever cluster stands before it. -/
def BreakClass.continues : BreakClass → Bool
  | .mark | .linker | .nonJoiner | .joiner | .spacingMark => true
  | _ => false

/-- A character that may stand between a pictograph and the joiner behind it. -/
def BreakClass.isMark : BreakClass → Bool
  | .mark | .linker | .nonJoiner => true
  | _ => false

end LoxCalc.Unicode
