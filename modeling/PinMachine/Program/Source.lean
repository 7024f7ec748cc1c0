import PinMachine.Diagnostic
import PinMachine.Journal
import PinMachine.Program
import PinMachine.Token.Scan

/-!
Programs from source texts. Each line is scanned from left to right on its own.
A line on which no pattern matches at some column keeps the tokens before that
column and gives one diagnostic; it changes no other line.
-/

namespace PinMachine

/-- Whether comments become tokens or end the scan of their line. -/
inductive CommentMode where
  | skip
  | keep
  deriving DecidableEq, Repr

/-- The tokens of a line and the column at which its scan got stuck, if any. -/
structure ScannedLine where
  tokens : List Token
  unparsed : Option Nat
  deriving DecidableEq, Repr

def ScannedLine.finished : ScannedLine := ⟨[], none⟩

def ScannedLine.cons (token : Token) (later : ScannedLine) : ScannedLine :=
  ⟨token :: later.tokens, later.unparsed⟩

/-- Scans the characters from a column on. The next `taken` of them belong to
the lexeme found last and are passed over; `leading` says that no token has been
found yet. -/
def scanFrom (mode : CommentMode) (line : Nat) :
    (column : Nat) → (leading : Bool) → (taken : Nat) → List Char → ScannedLine
  | _, _, _, [] => .finished
  | column, leading, taken + 1, _ :: rest =>
      scanFrom mode line (column + 1) leading taken rest
  | column, leading, 0, char :: rest =>
      match nextLexeme? leading (char :: rest) with
      | none => ⟨[], some column⟩
      | some (lexeme, _) =>
          let taken := lexeme.text.length - 1
          match lexeme.kind, mode with
          | .whitespace, _ => scanFrom mode line (column + 1) leading taken rest
          | .comment, .skip => .finished
          | _, _ =>
              .cons ⟨lexeme, line, column⟩
                (scanFrom mode line (column + 1) false taken rest)

def scanLine (mode : CommentMode) (index : Nat) (text : List Char) : ScannedLine :=
  scanFrom mode index 0 true 0 text

/-- The line at an index, with the number of instruction lines before it. -/
def Line.ofText (mode : CommentMode) (index offset : Nat) (text : List Char) :
    Line :=
  let scanned := scanLine mode index text
  { text := text
    index := index
    instructionOffset := offset
    tokens := scanned.tokens
    unparsed := scanned.unparsed }

/-- Reads lines one after the other, counting lines and instruction lines. The
lines already read are held newest first. -/
def readLinesFrom (mode : CommentMode) (done : List Line) (index offset : Nat) :
    List (List Char) → List Line
  | [] => done.reverse
  | text :: rest =>
      let line := Line.ofText mode index offset text
      let counted := if line.isInstruction then offset + 1 else offset
      readLinesFrom mode (line :: done) (index + 1) counted rest

def Program.ofSource (mode : CommentMode) (source : String) : Program :=
  .ofLines (readLinesFrom mode [] 0 0 (splitLines source.toList))

/-- The message for characters that belong to no token. -/
def unparsableMessage : String := "Unable to parse remainder of line"

/-- The error from the column at which the scan got stuck to the end of the
line. -/
def Line.lexicalError? (line : Line) : Option Diagnostic :=
  line.unparsed.map fun column =>
    { severity := .error
      line := line.index
      startColumn := column
      endColumn := line.text.length - 1
      message := unparsableMessage }

def Program.lexicalErrors (program : Program) : Diagnostics :=
  .ofList (program.lines.filterMap Line.lexicalError?)

/-- The journal of reading a program: one entry for each incomplete line. -/
def Program.readingJournal (program : Program) : List JournalEntry :=
  program.lines.filterMap fun line =>
    line.unparsed.map fun column =>
      { level := .debug
        component := .lexer
        message :=
          "line " ++ toString line.index ++ ": no token rule matches at column " ++
            toString column }

end PinMachine
