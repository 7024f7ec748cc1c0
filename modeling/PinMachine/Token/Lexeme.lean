import PinMachine.Token.Kind

/-!
Lexemes: what a token says, apart from where it stands. A lexeme keeps the parts
that its pattern captures, and its text is put together from them, so a text and
its captured parts cannot disagree.
-/

namespace PinMachine

/-- One lexeme of each kind, with the captured parts. -/
inductive Lexeme where
  | label (name : List Char)
  | instruction (name : List Char)
  | register (name : List Char)
  | labelArgument (name : List Char)
  | pinRange (first last : List Char)
  | pinRangeLength (first count : List Char)
  | pin (index : List Char)
  | binary (digits : List Char)
  | hex (digits : List Char)
  | integer (digits : List Char)
  | whitespace (blanks : List Char)
  | comment (text : List Char)
  deriving DecidableEq, Repr

def Lexeme.kind : Lexeme → TokenKind
  | .label _ => .label
  | .instruction _ => .instruction
  | .register _ => .register
  | .labelArgument _ => .labelArgument
  | .pinRange _ _ => .pinRange
  | .pinRangeLength _ _ => .pinRangeLength
  | .pin _ => .pin
  | .binary _ => .binary
  | .hex _ => .hex
  | .integer _ => .integer
  | .whitespace _ => .whitespace
  | .comment _ => .comment

def Lexeme.text : Lexeme → List Char
  | .label name => ':' :: name
  | .instruction name => name
  | .register name => '$' :: name
  | .labelArgument name => name
  | .pinRange first last => '.' :: 'p' :: first ++ '.' :: '.' :: 'p' :: last
  | .pinRangeLength first count => '.' :: 'p' :: first ++ ':' :: count
  | .pin index => '.' :: 'p' :: index
  | .binary digits => '0' :: 'b' :: digits
  | .hex digits => '0' :: 'x' :: digits
  | .integer digits => digits
  | .whitespace blanks => blanks
  | .comment text => text

def Lexeme.groups : Lexeme → List (List Char)
  | .label name | .instruction name | .register name | .labelArgument name =>
      [name]
  | .pinRange first last => [first, last]
  | .pinRangeLength first count => [first, count]
  | .pin index => [index]
  | .binary digits | .hex digits | .integer digits => [digits]
  | .whitespace _ => []
  | .comment text => [text]

end PinMachine
