/-!
# Reading UTF-8

Bytes are read one at a time by a machine that holds the character under way: its bits so far, how
many continuation bytes it still owes, and the range of the next one. The ranges rule out overlong
forms, surrogates and code points above U+10FFFF at the first byte that shows them, so that the
bytes given up at an error are exactly the longest start of a character. `Utf8.decode?` refuses a
text with such a part and `Utf8.decodeLossy` puts one U+FFFD in its place.
-/

namespace LoxCalc.Text.Utf8

/-- A character under way: its bits so far, the continuation bytes it owes behind the next one, and
the least and greatest value of the next one. -/
structure Pending where
  bits : Nat
  owed : Nat
  least : Nat := 0x80
  greatest : Nat := 0xBF

/-- What a byte does between characters. -/
inductive Start where
  /-- The byte is a character. -/
  | whole (c : Char)
  /-- The byte begins a character. -/
  | begins (p : Pending)
  /-- No character begins with the byte. -/
  | invalid

/-- The reading of a byte between characters. -/
def start (b : UInt8) : Start :=
  let n := b.toNat
  if n < 0x80 then .whole (Char.ofNat n)
  else if n < 0xC2 then .invalid
  else if n < 0xE0 then .begins { bits := n - 0xC0, owed := 0 }
  else if n = 0xE0 then .begins { bits := 0, owed := 1, least := 0xA0 }
  else if n = 0xED then .begins { bits := 0xD, owed := 1, greatest := 0x9F }
  else if n < 0xF0 then .begins { bits := n - 0xE0, owed := 1 }
  else if n = 0xF0 then .begins { bits := 0, owed := 2, least := 0x90 }
  else if n < 0xF4 then .begins { bits := n - 0xF0, owed := 2 }
  else if n = 0xF4 then .begins { bits := 4, owed := 2, greatest := 0x8F }
  else .invalid

/-- The characters of a byte string, `none` standing for each part that is no character; `pending`
is the character that earlier bytes have begun. -/
def unitsFrom : Option Pending → List UInt8 → List (Option Char)
  | none, [] => []
  | some _, [] => [none]
  | none, b :: rest =>
    match start b with
    | .whole c => some c :: unitsFrom none rest
    | .begins p => unitsFrom (some p) rest
    | .invalid => none :: unitsFrom none rest
  | some p, b :: rest =>
    if p.least ≤ b.toNat ∧ b.toNat ≤ p.greatest then
      let bits := p.bits * 64 + (b.toNat - 0x80)
      match p.owed with
      | 0 => some (Char.ofNat bits) :: unitsFrom none rest
      | owed + 1 => unitsFrom (some { bits, owed }) rest
    else
      -- The byte is not part of the character under way, which is given up.
      match start b with
      | .whole c => none :: some c :: unitsFrom none rest
      | .begins q => none :: unitsFrom (some q) rest
      | .invalid => none :: none :: unitsFrom none rest

/-- The characters of a byte string, `none` standing for each part that is no character. -/
def units (bytes : List UInt8) : List (Option Char) :=
  unitsFrom none bytes

/-- The text that the bytes encode, if they are valid throughout. -/
def decode? (bytes : List UInt8) : Option String :=
  ((units bytes).mapM id).map String.ofList

/-- The text that the bytes encode, with U+FFFD in place of every invalid part. -/
def decodeLossy (bytes : List UInt8) : String :=
  String.ofList ((units bytes).map (·.getD '\uFFFD'))

end LoxCalc.Text.Utf8
