import PinMachine.Text.Span
import PinMachine.Token.Scan

/-!
Measures. A pattern can also be said by numbers alone: how many characters it takes at the
front of a text, and from where to where the captured ones stand. A pattern that takes no
character, or has nothing to capture where it should, finds nothing.
-/

namespace PinMachine

/-- What a pattern finds, in characters from the front of the text. -/
structure Measure where
  length : Nat
  captured : List Span
  deriving DecidableEq, Repr

def runLength (class? : Char → Bool) (text : List Char) : Nat :=
  (text.takeWhile class?).length

def identifierLength : List Char → Nat
  | [] => 0
  | first :: others =>
      if first.isAlpha then
        if runLength isNameChar others = 0 then 0 else runLength isNameChar others + 1
      else 0

def countLength : List Char → Nat
  | [] => 0
  | first :: others =>
      if '1' ≤ first ∧ first ≤ '9' then 1 + runLength Char.isDigit others else 0

/-- The greatest length up to a given one that does not end with an underscore. -/
def trimmedLength (text : List Char) : (length : Nat) → Nat
  | 0 => 0
  | length + 1 =>
      if text[length]? = some '_' then trimmedLength text length else length + 1

def binaryLength (text : List Char) : Nat :=
  if text.head? = some '0' ∨ text.head? = some '1' then
    trimmedLength text (runLength isBinaryChar text)
  else 0

def commentLength (text : List Char) : Nat :=
  if text.head? = some ';' ∨ text.head? = some '#' then text.length else 0

/-- The length of some fixed characters, if a text starts with them. -/
def fixedLength? (fixed text : List Char) : Option Nat :=
  if fixed.isPrefixOf text then some fixed.length else none

/-- Fixed characters and a captured part behind them. -/
def partMeasure? (fixed : List Char) (length : List Char → Nat) (text : List Char) :
    Option Measure :=
  (fixedLength? fixed text).bind fun start =>
    let width := length (text.drop start)
    if width = 0 then none else some ⟨start + width, [⟨start, start + width⟩]⟩

/-- A pin, fixed characters that separate, and a captured part behind them. -/
def rangeMeasure? (separator : List Char) (length : List Char → Nat) (text : List Char) :
    Option Measure :=
  (partMeasure? ['.', 'p'] (runLength Char.isDigit) text).bind fun pin =>
    (fixedLength? separator (text.drop pin.length)).bind fun between =>
      let start := pin.length + between
      let width := length (text.drop start)
      if width = 0 then none
      else some ⟨start + width, pin.captured ++ [⟨start, start + width⟩]⟩

def TokenKind.measure? (kind : TokenKind) (text : List Char) : Option Measure :=
  match kind with
  | .label => partMeasure? [':'] identifierLength text
  | .instruction => partMeasure? [] (runLength Char.isAlpha) text
  | .register => partMeasure? ['$'] (runLength Char.isAlphanum) text
  | .labelArgument => partMeasure? [] identifierLength text
  | .pinRange => rangeMeasure? ['.', '.', 'p'] (runLength Char.isDigit) text
  | .pinRangeLength => rangeMeasure? [':'] countLength text
  | .pin => partMeasure? ['.', 'p'] (runLength Char.isDigit) text
  | .binary => partMeasure? ['0', 'b'] binaryLength text
  | .hex => partMeasure? ['0', 'x'] (runLength isHexDigit) text
  | .integer => partMeasure? [] (runLength Char.isDigit) text
  | .whitespace =>
      let width := runLength (fun char => char == ' ' || char == '\t') text
      if width = 0 then none else some ⟨width, []⟩
  | .comment => partMeasure? [] commentLength text

/-- What stands at the front of a text: the first kind that finds something, in order of
priority. -/
def nextMeasure? (leading : Bool) (text : List Char) : Option (TokenKind × Measure) :=
  TokenKind.all.findSome? fun kind =>
    if kind.leadsLine && !leading then none
    else (kind.measure? text).map fun found => (kind, found)

end PinMachine
