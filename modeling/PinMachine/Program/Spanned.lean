import PinMachine.Program.Source
import PinMachine.Token.Measure
import PinMachine.Token.Spanned

/-!
Sources as tokens by spans. Each line is scanned by measures: a measure says how far the next
token goes and which of its characters are captured, and these are then counted in bytes of
the text of the token.
-/

namespace PinMachine

/-- The tokens of a line and the column at which its scan got stuck, if any. -/
structure SpannedLine where
  tokens : List SpannedToken
  unparsed : Option Nat
  deriving DecidableEq, Repr

def SpannedLine.finished : SpannedLine := ⟨[], none⟩

def SpannedLine.cons (token : SpannedToken) (later : SpannedLine) : SpannedLine :=
  ⟨token :: later.tokens, later.unparsed⟩

/-- The token of a kind that a measure finds at a column, in front of a text. -/
def SpannedToken.ofMeasure (kind : TokenKind) (measure : Measure) (line column : Nat)
    (text : List Char) : SpannedToken :=
  let matched := text.take measure.length
  { text := matched
    kind := kind
    line := line
    startColumn := column
    endColumn := column + measure.length - 1
    groups := measure.captured.map (·.inBytes matched) }

/-- Scans the characters from a column on. The next `taken` of them belong to the token
found last and are passed over; `leading` says that no token has been found yet. -/
def spanFrom (mode : CommentMode) (line : Nat) :
    (column : Nat) → (leading : Bool) → (taken : Nat) → List Char → SpannedLine
  | _, _, _, [] => .finished
  | column, leading, taken + 1, _ :: rest =>
      spanFrom mode line (column + 1) leading taken rest
  | column, leading, 0, char :: rest =>
      match nextMeasure? leading (char :: rest) with
      | none => ⟨[], some column⟩
      | some (kind, measure) =>
          let taken := measure.length - 1
          match kind, mode with
          | .whitespace, _ => spanFrom mode line (column + 1) leading taken rest
          | .comment, .skip => .finished
          | _, _ =>
              .cons (.ofMeasure kind measure line column (char :: rest))
                (spanFrom mode line (column + 1) false taken rest)

/-- The lines of a source, each with its tokens by spans. -/
def spannedLines (mode : CommentMode) (source : String) : List SpannedLine :=
  (splitLines source.toList).zipIdx.map fun entry => spanFrom mode entry.2 0 true 0 entry.1

end PinMachine
