/-!
Token kinds. The order of declaration is the order in which the lexer tries
them: the first kind whose pattern matches wins.
-/

namespace PinMachine

inductive TokenKind where
  /-- `:name`, only as the first token of a line. -/
  | label
  /-- A bare run of letters, only as the first token of a line. -/
  | instruction
  /-- `$name` -/
  | register
  /-- The name of a label, given as an argument. -/
  | labelArgument
  /-- `.pA..pB` -/
  | pinRange
  /-- `.pA:N` -/
  | pinRangeLength
  /-- `.pA` -/
  | pin
  /-- `0b` and binary digits, which underscores may separate. -/
  | binary
  /-- `0x` and hexadecimal digits. -/
  | hex
  /-- Decimal digits. -/
  | integer
  /-- Spaces and tabs. No token of a line has this kind. -/
  | whitespace
  /-- `;` or `#` and everything after it. -/
  | comment
  deriving DecidableEq, Repr

def TokenKind.all : List TokenKind :=
  [.label, .instruction, .register, .labelArgument, .pinRange, .pinRangeLength,
    .pin, .binary, .hex, .integer, .whitespace, .comment]

def TokenKind.name : TokenKind → String
  | .label => "LABEL"
  | .instruction => "INSTRUCTION"
  | .register => "REGISTER"
  | .labelArgument => "LABEL_ARG"
  | .pinRange => "PIN_RANGE"
  | .pinRangeLength => "PIN_RANGE_LENGTH"
  | .pin => "PIN"
  | .binary => "BINARY"
  | .hex => "HEX"
  | .integer => "INTEGER"
  | .whitespace => "WHITESPACE"
  | .comment => "COMMENT"

def TokenKind.ofName? (name : String) : Option TokenKind :=
  TokenKind.all.find? fun kind => kind.name == name

def TokenKind.isConstant : TokenKind → Bool
  | .binary | .hex | .integer => true
  | _ => false

def TokenKind.isPin : TokenKind → Bool
  | .pin | .pinRange | .pinRangeLength => true
  | _ => false

/-- Kinds that only the first token of a line may have. -/
def TokenKind.leadsLine : TokenKind → Bool
  | .label | .instruction => true
  | _ => false

end PinMachine
