/-!
Spans of a text. A span is a range of positions, without the last one. Positions count the
characters of a text, or its bytes in UTF-8; a span of bytes is a part of the text only if
both its ends fall between characters.
-/

namespace PinMachine

/-- How many bytes a text takes in UTF-8. -/
def utf8Length : List Char → Nat
  | [] => 0
  | char :: rest => char.utf8Size + utf8Length rest

/-- Cuts a text behind some of its bytes. There is no cut inside a character, and none
behind the end of the text. -/
def cutBytes? : (bytes : Nat) → (text : List Char) → Option (List Char × List Char)
  | 0, text => some ([], text)
  | _ + 1, [] => none
  | bytes + 1, char :: rest =>
      if char.utf8Size ≤ bytes + 1 then
        (cutBytes? (bytes + 1 - char.utf8Size) rest).map fun cut => (char :: cut.1, cut.2)
      else none

/-- The positions from `start` on that are before `stop`. -/
structure Span where
  start : Nat
  stop : Nat
  deriving DecidableEq, Repr

namespace Span

/-- The bytes that a span of characters of a text takes. -/
def inBytes (span : Span) (text : List Char) : Span :=
  ⟨utf8Length (text.take span.start), utf8Length (text.take span.stop)⟩

/-- The part of a text that a span of bytes covers. -/
def slice? (span : Span) (text : List Char) : Option (List Char) :=
  if span.start ≤ span.stop then
    (cutBytes? span.start text).bind fun front =>
      (cutBytes? (span.stop - span.start) front.2).map Prod.fst
  else none

end Span

end PinMachine
