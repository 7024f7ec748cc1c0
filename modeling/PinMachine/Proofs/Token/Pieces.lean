import PinMachine.Proofs.Text.Span
import PinMachine.Token.Measure

/-!
Pieces of lexemes. A lexeme is made of characters that are fixed in its kind and of captured
parts between them. The pieces give the places of the captured parts, counted in characters
or in bytes; the first are turned into the second by counting the bytes before them, and at
the second the captured parts can be sliced out of the text again.
-/

namespace PinMachine

inductive Piece where
  | fixed (text : List Char)
  | captured (text : List Char)
  deriving DecidableEq, Repr

namespace Piece

def text : Piece → List Char
  | .fixed text | .captured text => text

def captured? : Piece → Option (List Char)
  | .fixed _ => none
  | .captured text => some text

/-- Where the captured pieces stand, by some size of texts. -/
def spans (size : List Char → Nat) : (start : Nat) → List Piece → List Span
  | _, [] => []
  | start, .fixed text :: later => spans size (start + size text) later
  | start, .captured text :: later =>
      ⟨start, start + size text⟩ :: spans size (start + size text) later

theorem slice?_spans (before after : List Char) (pieces : List Piece) :
    (spans utf8Length (utf8Length before) pieces).map
        (·.slice? (before ++ pieces.flatMap text ++ after)) =
      (pieces.filterMap captured?).map some := by
  induction pieces generalizing before with
  | nil => rfl
  | cons piece later ih =>
      have behind := ih (before ++ piece.text)
      rw [utf8Length_append, List.append_assoc before] at behind
      cases piece with
      | fixed text => exact behind
      | captured text =>
          have here : (⟨utf8Length before, utf8Length before + utf8Length text⟩ : Span).slice?
              (before ++ (text ++ later.flatMap Piece.text) ++ after) = some text := by
            rw [Span.slice?_eq_some_iff]
            refine ⟨before, later.flatMap Piece.text ++ after, ?_, rfl, rfl⟩
            simp only [List.append_assoc]
          exact List.cons_eq_cons.mpr ⟨here, behind⟩

theorem inBytes_spans (before after : List Char) (pieces : List Piece) :
    (spans List.length before.length pieces).map
        (·.inBytes (before ++ pieces.flatMap text ++ after)) =
      spans utf8Length (utf8Length before) pieces := by
  induction pieces generalizing before with
  | nil => rfl
  | cons piece later ih =>
      have behind := ih (before ++ piece.text)
      rw [utf8Length_append, List.length_append, List.append_assoc before] at behind
      cases piece with
      | fixed text => exact behind
      | captured text =>
          have here : (⟨before.length, before.length + text.length⟩ : Span).inBytes
              (before ++ (text ++ later.flatMap Piece.text) ++ after) =
                ⟨utf8Length before, utf8Length before + utf8Length text⟩ := by
            have split : before ++ (text ++ later.flatMap Piece.text) ++ after =
                before ++ text ++ (later.flatMap Piece.text ++ after) := by
              simp only [List.append_assoc]
            unfold Span.inBytes
            rw [split, ← List.length_append, List.take_left, utf8Length_append,
              List.append_assoc, List.take_left]
          exact List.cons_eq_cons.mpr ⟨here, behind⟩

end Piece

namespace Lexeme

def pieces : Lexeme → List Piece
  | .label name => [.fixed [':'], .captured name]
  | .register name => [.fixed ['$'], .captured name]
  | .instruction name | .labelArgument name => [.captured name]
  | .pinRange first last =>
      [.fixed ['.', 'p'], .captured first, .fixed ['.', '.', 'p'], .captured last]
  | .pinRangeLength first count =>
      [.fixed ['.', 'p'], .captured first, .fixed [':'], .captured count]
  | .pin index => [.fixed ['.', 'p'], .captured index]
  | .binary digits => [.fixed ['0', 'b'], .captured digits]
  | .hex digits => [.fixed ['0', 'x'], .captured digits]
  | .integer digits => [.captured digits]
  | .whitespace blanks => [.fixed blanks]
  | .comment text => [.captured text]

theorem text_pieces (lexeme : Lexeme) : lexeme.pieces.flatMap Piece.text = lexeme.text := by
  cases lexeme <;> simp [pieces, Piece.text, text]

theorem groups_pieces (lexeme : Lexeme) :
    lexeme.pieces.filterMap Piece.captured? = lexeme.groups := by
  cases lexeme <;> rfl

/-- How many characters the lexeme takes, and which of them are captured. -/
def measure (lexeme : Lexeme) : Measure :=
  ⟨lexeme.text.length, Piece.spans List.length 0 lexeme.pieces⟩

/-- The bytes of the captured parts. -/
def spans (lexeme : Lexeme) : List Span :=
  Piece.spans utf8Length 0 lexeme.pieces

theorem slice?_spans (lexeme : Lexeme) :
    lexeme.spans.map (·.slice? lexeme.text) = lexeme.groups.map some := by
  have sliced := Piece.slice?_spans [] [] lexeme.pieces
  rw [List.nil_append, List.append_nil, text_pieces, groups_pieces] at sliced
  exact sliced

theorem inBytes_measure (lexeme : Lexeme) :
    lexeme.measure.captured.map (·.inBytes lexeme.text) = lexeme.spans := by
  have counted := Piece.inBytes_spans [] [] lexeme.pieces
  rw [List.nil_append, List.append_nil, text_pieces] at counted
  exact counted

end Lexeme

end PinMachine
