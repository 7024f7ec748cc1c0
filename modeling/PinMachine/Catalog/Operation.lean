import PinMachine.Action

/-!
The operations of the standard instruction set. All arithmetic is modulo 2^16.
An operation that lacks an argument, or gets one that it has no use for, faults
under its own mnemonic, whatever name a catalog gives to it.
-/

namespace PinMachine

/-- Two words into the accumulator. -/
inductive Arithmetic where
  | add | sub | mul | div | mod
  deriving DecidableEq, Repr

/-- A register combined with a word, bit by bit. -/
inductive Bitwise where
  | and | or | xor
  deriving DecidableEq, Repr

inductive ShiftDirection where
  | left | right
  deriving DecidableEq, Repr

/-- Comparisons of two words without sign. -/
inductive Comparison where
  | equal | notEqual | less | greater
  deriving DecidableEq, Repr

/-- What the test register has to hold for a return to happen. -/
inductive ReturnGuard where
  | always | whenTrue | whenFalse
  deriving DecidableEq, Repr

inductive Operation where
  | arithmetic (operator : Arithmetic)
  | move
  | bitwise (operator : Bitwise)
  | complement
  | shift (direction : ShiftDirection)
  | test (comparison : Comparison)
  | jump
  | branch (comparison : Comparison)
  | call
  | giveBack (guard : ReturnGuard)
  | sleep
  | storePins
  | loadPins
  | clearPins
  deriving DecidableEq, Repr

def Comparison.suffix : Comparison → String
  | .equal => "eq"
  | .notEqual => "ne"
  | .less => "lt"
  | .greater => "gt"

namespace Operation

/-- The name of an operation in programs and in its faults. -/
def mnemonic : Operation → String
  | .arithmetic .add => "add"
  | .arithmetic .sub => "sub"
  | .arithmetic .mul => "mul"
  | .arithmetic .div => "div"
  | .arithmetic .mod => "mod"
  | .move => "mov"
  | .bitwise .and => "and"
  | .bitwise .or => "or"
  | .bitwise .xor => "xor"
  | .complement => "not"
  | .shift .left => "shl"
  | .shift .right => "shr"
  | .test comparison => "t" ++ comparison.suffix
  | .jump => "jmp"
  | .branch comparison => "b" ++ comparison.suffix
  | .call => "jsr"
  | .giveBack .always => "ret"
  | .giveBack .whenTrue => "rtt"
  | .giveBack .whenFalse => "rtf"
  | .sleep => "slp"
  | .storePins => "stp"
  | .loadPins => "ldp"
  | .clearPins => "clp"

def all : List Operation :=
  [.arithmetic .add, .arithmetic .sub, .arithmetic .mul, .arithmetic .div,
    .arithmetic .mod, .move, .bitwise .and, .bitwise .or, .bitwise .xor,
    .complement, .shift .left, .shift .right, .test .equal, .test .notEqual,
    .test .less, .test .greater, .jump, .branch .equal, .branch .notEqual,
    .branch .less, .branch .greater, .call, .giveBack .always,
    .giveBack .whenTrue, .giveBack .whenFalse, .sleep, .storePins, .loadPins,
    .clearPins]

def ofMnemonic? (name : String) : Option Operation :=
  all.find? fun operation => operation.mnemonic == name

end Operation

/-- The combination of two words. There is no quotient by zero. -/
def Arithmetic.apply (operator : Arithmetic) (left right : Word) :
    Except Fault Word :=
  match operator with
  | .add => .ok (left + right)
  | .sub => .ok (left - right)
  | .mul => .ok (left * right)
  | .div => if right = 0 then .error .divisionByZero else .ok (left / right)
  | .mod => if right = 0 then .error .divisionByZero else .ok (left % right)

/-- Which of two arguments is the left operand and which the right one. Of two
arguments the first is subtracted from the second. -/
def Arithmetic.operandOrder : Arithmetic → Nat × Nat
  | .sub => (1, 0)
  | _ => (0, 1)

def Bitwise.apply : Bitwise → Word → Word → Word
  | .and, left, right => left &&& right
  | .or, left, right => left ||| right
  | .xor, left, right => left ^^^ right

/-- A logical shift. Shifting by sixteen or more gives zero. -/
def ShiftDirection.apply : ShiftDirection → Word → Word → Word
  | .left, value, amount => value <<< amount.toNat
  | .right, value, amount => value >>> amount.toNat

def Comparison.holds : Comparison → Word → Word → Bool
  | .equal, left, right => left == right
  | .notEqual, left, right => left != right
  | .less, left, right => left.ult right
  | .greater, left, right => right.ult left

/-- The content of the test register lets the return happen. -/
def ReturnGuard.admits : ReturnGuard → Word → Bool
  | .always, _ => true
  | .whenTrue, test => test == 1
  | .whenFalse, test => test == 0

/-- The low bits of a word, most significant first. Places above the word are
off. -/
def wordBits (value : Word) (count : Nat) : List Bool :=
  (List.range count).map fun index => value.getLsbD (count - 1 - index)

/-- The word that a list of bits writes, most significant first. Bits beyond the
last sixteen are lost. -/
def wordOfBits (bits : List Bool) : Word :=
  bits.foldl (fun word bit => (word <<< 1) ||| (BitVec.ofBool bit).setWidth 16) 0

/-- The accumulator, the test register and the register for returned words. -/
def accumulator : String := "acc"
def testRegister : String := "t"
def returnValueRegister : String := "rv"

namespace Action

def argument (instruction : String) (arguments : List Token) (index : Nat) :
    Action Token :=
  match arguments[index]? with
  | some token => .done token
  | none => .raise (.missingArgument instruction index)

/-- The word that a lexeme stands for: the content of a register, a constant, or
the line address of a label. -/
def wordOf (lexeme : Lexeme) : Action Word :=
  match lexeme with
  | .register name => register (String.ofList name)
  | .binary _ | .hex _ | .integer _ => ofExcept (lexeme.readConstant.mapError .value)
  | .labelArgument name => do
      let label := String.ofList name
      match ← labelAddress label with
      | none => .raise (.unknownLabel label)
      | some address =>
          if address ≤ maxWord then return BitVec.ofNat 16 address
          else .raise (.addressOutOfRange address)
  | other => .raise (.invalidArgument "value" other.kind)

def wordArgument (instruction : String) (arguments : List Token) (index : Nat) :
    Action Word := do
  let token ← argument instruction arguments index
  wordOf token.lexeme

def registerArgument (instruction : String) (arguments : List Token)
    (index : Nat) : Action String := do
  let token ← argument instruction arguments index
  match token.lexeme with
  | .register name => return String.ofList name
  | other => .raise (.invalidArgument instruction other.kind)

def pinArgument (instruction : String) (arguments : List Token) (index : Nat) :
    Action PinRange := do
  let token ← argument instruction arguments index
  if token.kind.isPin then ofExcept (token.lexeme.readPinRange.mapError .value)
  else .raise (.invalidArgument instruction token.kind)

/-- Goes on after the declaration of a label, or after the line address that any
other argument stands for. -/
def goTo (target : Token) : Action Unit :=
  match target.lexeme with
  | .labelArgument name => jumpToLabel (String.ofList name)
  | other => do
      let address ← wordOf other
      jump address.toNat

/-- Comes back from the latest call. A word to give back is read before the
registers of the caller are restored. -/
def comeBack (instruction : String) (arguments : List Token) : Action Unit := do
  if !arguments.isEmpty then
    let value ← wordArgument instruction arguments 0
    setRegister returnValueRegister value
  let address ← popFrame
  jump address

end Action

/-! ### Behavior -/

open PinMachine.Action in
/-- What each operation does with its arguments. -/
def Operation.behavior (operation : Operation) : Behavior := fun arguments =>
  let name := operation.mnemonic
  let word := wordArgument name arguments
  match operation with
  | .arithmetic operator => do
      let order := operator.operandOrder
      let left ←
        if 2 ≤ arguments.length then word order.1 else register accumulator
      let right ← if 2 ≤ arguments.length then word order.2 else word 0
      let result ← ofExcept (operator.apply left right)
      setRegister accumulator result
  | .move => do
      let target ← registerArgument name arguments 0
      let value ← word 1
      setRegister target value
  | .bitwise operator => do
      let target ← registerArgument name arguments 0
      let current ← register target
      let operand ← word 1
      setRegister target (operator.apply current operand)
  | .complement => do
      let target ← registerArgument name arguments 0
      let current ← register target
      setRegister target (~~~current)
  | .shift direction => do
      let target ← registerArgument name arguments 0
      let value ← word 1
      let amount ← word 2
      setRegister target (direction.apply value amount)
  | .test comparison => do
      let left ← word 0
      let right ← word 1
      setRegister testRegister (if comparison.holds left right then 1 else 0)
  | .jump => do
      let target ← argument name arguments 0
      goTo target
  | .branch comparison => do
      let target ← argument name arguments 0
      let left ← word 1
      let right ← word 2
      if comparison.holds left right then goTo target
  | .call => do
      let target ← argument name arguments 0
      pushFrame
      goTo target
  | .giveBack .always => comeBack name arguments
  | .giveBack guard => do
      let test ← register testRegister
      if guard.admits test then comeBack name arguments
  | .sleep => do
      let steps ← word 0
      Action.sleep steps.toNat
  | .storePins => do
      let range ← pinArgument name arguments 0
      let value ← word 1
      setPins range (wordBits value range.count)
  | .loadPins => do
      let target ← registerArgument name arguments 0
      let range ← pinArgument name arguments 1
      let bits ← pins range
      let current ← register target
      setRegister target (current ||| wordOfBits bits)
  | .clearPins => do
      let range ← pinArgument name arguments 0
      setPins range (List.replicate range.count false)

end PinMachine
