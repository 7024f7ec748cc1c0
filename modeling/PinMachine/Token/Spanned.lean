import PinMachine.Text.Span
import PinMachine.Token.Value

/-!
Tokens by spans. A reader that keeps the text of a token, and for each captured part only
the bytes that it takes, has to slice the part out of the text before it can use it. A part
that is missing or cannot be sliced makes the token malformed, and a part that is no number
where one is needed counts as a number that is too large.
-/

namespace PinMachine

structure SpannedToken where
  text : List Char
  kind : TokenKind
  line : Nat
  startColumn : Nat
  endColumn : Nat
  /-- The bytes of the captured parts. -/
  groups : List Span
  deriving DecidableEq, Repr

def isDigitOf (base : Nat) (char : Char) : Bool :=
  isHexDigit char && digitValue char < base

/-- The number that a text writes, if it is one below a bound. A plus sign may lead it. -/
def parseBelow? (base bound : Nat) (text : List Char) : Option Nat :=
  let digits := if text.head? = some '+' then text.tail else text
  if digits ≠ [] ∧ digits.all (isDigitOf base) = true then numeralBelow? base bound digits
  else none

def parseIndex (text : List Char) : Except ValueError Nat :=
  match parseBelow? 10 pinIndexBound text with
  | some number => .ok number
  | none => .error (.overflow (String.ofList text))

namespace SpannedToken

/-- A captured part by its number, counted from one. Number zero is the whole text. -/
def group? (token : SpannedToken) : (number : Nat) → Option (List Char)
  | 0 => some token.text
  | index + 1 => token.groups[index]?.bind fun span => span.slice? token.text

def group (token : SpannedToken) (number : Nat) : Except ValueError (List Char) :=
  match token.group? number with
  | some part => .ok part
  | none => .error (.malformed token.kind (String.ofList token.text))

def readName (token : SpannedToken) : Except ValueError String :=
  match token.kind with
  | .label | .labelArgument | .register | .instruction => do
      let name ← token.group 1
      return String.ofList name
  | other => .error (.invalidKind "name" other)

/-- The constant that the captured part writes in a base, without some characters. -/
def readNumeral (token : SpannedToken) (base : Nat) (keep : Char → Bool) :
    Except ValueError Word := do
  let digits ← token.group 1
  match parseBelow? base (maxWord + 1) (digits.filter keep) with
  | some number => return BitVec.ofNat 16 number
  | none => throw (.overflow (String.ofList token.text))

def readConstant (token : SpannedToken) : Except ValueError Word :=
  match token.kind with
  | .binary => token.readNumeral 2 (· != '_')
  | .hex => token.readNumeral 16 fun _ => true
  | .integer => token.readNumeral 10 fun _ => true
  | other => .error (.invalidKind "constant" other)

def readPin (token : SpannedToken) (number : Nat) : Except ValueError Nat := do
  let digits ← token.group number
  parseIndex digits

def readPinIndex (token : SpannedToken) : Except ValueError Nat :=
  match token.kind with
  | .pin => token.readPin 1
  | other => .error (.invalidKind "pin index" other)

def readPinRange (token : SpannedToken) : Except ValueError PinRange :=
  match token.kind with
  | .pin => do
      let index ← token.readPinIndex
      return .single index
  | .pinRange => do
      let first ← token.readPin 1
      let last ← token.readPin 2
      return ⟨first, last⟩
  | .pinRangeLength => do
      let first ← token.readPin 1
      let count ← token.readPin 2
      if first + count < pinIndexBound ∧ 0 < first + count then
        return ⟨first, first + count - 1⟩
      else throw (.overflow (String.ofList token.text))
  | other => .error (.invalidKind "pin range" other)

end SpannedToken

end PinMachine
