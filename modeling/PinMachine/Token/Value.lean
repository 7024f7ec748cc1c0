import PinMachine.PinRange
import PinMachine.Text.Numeral
import PinMachine.Text.Quoted
import PinMachine.Token.Lexeme

/-!
Values of lexemes: the name, the number or the pins that a lexeme denotes. A
lexeme of a kind that has no such value, and a numeral beyond the bound of its
use, are errors of their own.
-/

namespace PinMachine

/-- The machine's words: numbers of sixteen bits, counted modulo 2^16. -/
abbrev Word := BitVec 16

/-- The largest number that fits a word. -/
def maxWord : Nat := 65535

/-- Pin numbers stay below 2^64. -/
def pinIndexBound : Nat := 18446744073709551616

/-- Why a lexeme does not have the value asked for. -/
inductive ValueError where
  /-- Lexemes of this kind have no value of the expected sort. -/
  | invalidKind (expected : String) (actual : TokenKind)
  | overflow (text : String)
  /-- A part that the kind must have is not there. -/
  | malformed (kind : TokenKind) (text : String)
  deriving DecidableEq, Repr

def ValueError.message : ValueError → String
  | .invalidKind expected actual =>
      "cannot read " ++ expected ++ " from " ++ actual.name ++ " token"
  | .overflow text => "value " ++ text ++ " is out of range"
  | .malformed kind text =>
      "malformed " ++ kind.name ++ " token " ++ quote text.toList

namespace Lexeme

/-- The name in a label, an instruction, a register or a label argument. -/
def readName : Lexeme → Except ValueError String
  | .label name | .labelArgument name | .register name | .instruction name =>
      .ok (String.ofList name)
  | other => .error (.invalidKind "name" other.kind)

def numeral? : Lexeme → Option (Nat × List Char)
  | .binary digits => some (2, digits.filter (· != '_'))
  | .hex digits => some (16, digits)
  | .integer digits => some (10, digits)
  | _ => none

def readConstant (lexeme : Lexeme) : Except ValueError Word :=
  match lexeme.numeral? with
  | none => .error (.invalidKind "constant" lexeme.kind)
  | some (base, digits) =>
      match numeralBelow? base (maxWord + 1) digits with
      | some number => .ok (BitVec.ofNat 16 number)
      | none => .error (.overflow (String.ofList lexeme.text))

def readIndex (digits : List Char) : Except ValueError Nat :=
  match numeralBelow? 10 pinIndexBound digits with
  | some number => .ok number
  | none => .error (.overflow (String.ofList digits))

def readPinIndex : Lexeme → Except ValueError Nat
  | .pin index => readIndex index
  | other => .error (.invalidKind "pin index" other.kind)

/-- The pins that a lexeme names. Whether the range runs forward is not checked
here. -/
def readPinRange (lexeme : Lexeme) : Except ValueError PinRange :=
  match lexeme with
  | .pin index => do
      let index ← readIndex index
      return .single index
  | .pinRange first last => do
      let first ← readIndex first
      let last ← readIndex last
      return ⟨first, last⟩
  | .pinRangeLength first count => do
      let first ← readIndex first
      let count ← readIndex count
      if first + count < pinIndexBound ∧ 0 < first + count then
        return ⟨first, first + count - 1⟩
      else throw (.overflow (String.ofList lexeme.text))
  | other => .error (.invalidKind "pin range" other.kind)

end Lexeme

/-- The largest constant, as a constant of this kind writes it. -/
def TokenKind.largestConstant : TokenKind → String
  | .hex => "FFFF"
  | .binary => "1111111111111111"
  | _ => "65535"

end PinMachine
