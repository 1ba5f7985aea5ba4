/-!
# Lines

A line ends at a line feed, and one carriage return right before the line feed belongs to the line's
end. What follows the last line feed is a line only if it is not empty, and keeps a final carriage
return. The same rule cuts bytes and characters.
-/

namespace LoxCalc.Text

variable {α : Type} [DecidableEq α]

/-- A reversed line without the carriage return it ends with, if it does. -/
def dropReturn (cr : α) : List α → List α
  | [] => []
  | c :: line => if c = cr then line else c :: line

/-- The lines of a sequence whose first line has begun with `current`, nearest first. -/
def linesFrom (lf cr : α) (current : List α) : List α → List (List α)
  | [] => if current.isEmpty then [] else [current.reverse]
  | c :: rest =>
    if c = lf then (dropReturn cr current).reverse :: linesFrom lf cr [] rest
    else linesFrom lf cr (c :: current) rest

/-- The lines of a text. -/
def lines (text : String) : List String :=
  (linesFrom '\n' '\r' [] text.toList).map String.ofList

/-- The lines of a byte string. -/
def byteLines (bytes : List UInt8) : List (List UInt8) :=
  linesFrom 0x0A 0x0D [] bytes

end LoxCalc.Text
