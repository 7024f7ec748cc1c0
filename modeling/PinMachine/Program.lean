import PinMachine.Token.Basic

/-!
Programs. A program keeps every line of its source, also the empty ones, so the
position of a line is its index in the source. Which lines hold instructions and
which line declares a label is read off the lines.
-/

namespace PinMachine

/-- One source line and its tokens. -/
structure Line where
  /-- The characters of the line, without its separator. -/
  text : List Char
  /-- The position of the line in the source. -/
  index : Nat
  /-- How many instruction lines stand before this one. -/
  instructionOffset : Nat
  tokens : List Token
  /-- The column at which no pattern matched, if there is one. -/
  unparsed : Option Nat
  deriving DecidableEq, Repr

namespace Line

/-- Some characters at the end of the line belong to no token. -/
def isIncomplete (line : Line) : Bool :=
  line.unparsed.isSome

def isEmpty (line : Line) : Bool :=
  line.tokens.isEmpty

/-- The name of the instruction, if the line starts with one. -/
def instructionName? (line : Line) : Option String :=
  match line.tokens with
  | ⟨.instruction name, _, _⟩ :: _ => some (String.ofList name)
  | _ => none

/-- The name of the declared label, if the line starts with a declaration. -/
def labelName? (line : Line) : Option String :=
  match line.tokens with
  | ⟨.label name, _, _⟩ :: _ => some (String.ofList name)
  | _ => none

def isInstruction (line : Line) : Bool :=
  line.instructionName?.isSome

def isLabel (line : Line) : Bool :=
  line.labelName?.isSome

/-- The only token is a comment. -/
def isComment (line : Line) : Bool :=
  match line.tokens with
  | [token] => token.isComment
  | _ => false

/-- The tokens after the first, without comments. -/
def arguments (line : Line) : List Token :=
  line.tokens.tail.filter fun token => !token.isComment

def kinds (line : Line) : List TokenKind :=
  line.tokens.map Token.kind

/-- The column of the last character; zero for an empty line. -/
def endColumn (line : Line) : Nat :=
  line.text.length - 1

end Line

/-- For each position the index of the first instruction line at or after it. -/
def followingInstructions (lines : List Line) : List (Option Nat) :=
  lines.foldr (fun line later =>
    (if line.isInstruction then some line.index else later.head?.join) :: later) []

/-- The declared labels with the lines that declare them, in order. -/
def labelDeclarations (lines : List Line) : List (String × Nat) :=
  lines.filterMap fun line => line.labelName?.map fun name => (name, line.index)

/-- The lines of a source, in order, and two tables that are read off them. -/
structure Program where
  lines : List Line
  /-- Where to go on from each position. -/
  following : Array (Option Nat)
  /-- Which lines declare labels. -/
  labels : List (String × Nat)
  following_eq : following = (followingInstructions lines).toArray
  labels_eq : labels = labelDeclarations lines
  deriving DecidableEq, Repr

namespace Program

def ofLines (lines : List Line) : Program :=
  { lines := lines
    following := (followingInstructions lines).toArray
    labels := labelDeclarations lines
    following_eq := rfl
    labels_eq := rfl }

def line? (program : Program) (index : Nat) : Option Line :=
  program.lines[index]?

def instructionLines (program : Program) : List Line :=
  program.lines.filter Line.isInstruction

def instructionIndices (program : Program) : List Nat :=
  program.instructionLines.map Line.index

def instructionCount (program : Program) : Nat :=
  program.instructionLines.length

def lastInstruction? (program : Program) : Option Nat :=
  program.instructionIndices.getLast?

/-- The index of the first line that declares a label. -/
def labelLine? (program : Program) (name : String) : Option Nat :=
  program.labels.lookup name

/-- The index of the first instruction line at or after a position. -/
def nextInstruction? (program : Program) (start : Nat) : Option Nat :=
  program.following[start]?.join

end Program

end PinMachine
