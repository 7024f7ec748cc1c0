import Mathlib.Algebra.Group.Nat.Defs
import PinMachine.Catalog.Operation
import PinMachine.Proofs.Program.Index

/-!
The reference semantics of the standard operations: an abstract machine whose
registers hold natural numbers. Operands are registers, numbers and pins; all of
them are read from the state before a line, and what a line does not name stays as
it is. The semantics says what one executed line does and where the program goes on
after it; it has no result for a line that ends the run.
-/

namespace PinMachine

namespace Reference

/-- What stands after the name of an instruction. -/
inductive Operand where
  | register (name : String)
  | number (value : Nat)
  /-- The pins from the first to the last, both included. -/
  | pins (first last : Nat)
  deriving DecidableEq, Repr

/-- The number, counted from one, of the line that declares a label. -/
def labelAddress? (program : Program) (label : String) : Option Nat :=
  (program.lines.findIdx? fun line => line.labelName? == some label).map (· + 1)

/-- The operand that a lexeme writes. A label stands for its address. -/
def Operand.ofLexeme? (program : Program) : Lexeme → Option Operand
  | .register name => some (.register (String.ofList name))
  | .integer digits => some (.number (numeralValue 10 digits))
  | .hex digits => some (.number (numeralValue 16 digits))
  | .binary digits => some (.number (numeralValue 2 (digits.filter (· != '_'))))
  | .labelArgument name => (labelAddress? program (String.ofList name)).map .number
  | .pin index => some (.pins (numeralValue 10 index) (numeralValue 10 index))
  | .pinRange first last => some (.pins (numeralValue 10 first) (numeralValue 10 last))
  | .pinRangeLength first count =>
      some (.pins (numeralValue 10 first)
        (numeralValue 10 first + numeralValue 10 count - 1))
  | _ => none

def operands? (program : Program) (tokens : List Token) : Option (List Operand) :=
  tokens.mapM fun token => Operand.ofLexeme? program token.lexeme

def names : List (String × Operation) :=
  [("add", .arithmetic .add), ("sub", .arithmetic .sub), ("mul", .arithmetic .mul),
    ("div", .arithmetic .div), ("mod", .arithmetic .mod), ("mov", .move),
    ("and", .bitwise .and), ("or", .bitwise .or), ("xor", .bitwise .xor),
    ("not", .complement), ("shl", .shift .left), ("shr", .shift .right),
    ("teq", .test .equal), ("tne", .test .notEqual), ("tlt", .test .less),
    ("tgt", .test .greater), ("jmp", .jump), ("beq", .branch .equal),
    ("bne", .branch .notEqual), ("blt", .branch .less), ("bgt", .branch .greater),
    ("jsr", .call), ("ret", .giveBack .always), ("rtt", .giveBack .whenTrue),
    ("rtf", .giveBack .whenFalse), ("slp", .sleep), ("stp", .storePins),
    ("ldp", .loadPins), ("clp", .clearPins)]

/-- The number that goes to the accumulator; nothing for a division by zero. -/
def arithmetic (operator : Arithmetic) (left right : Nat) : Option Nat :=
  match operator with
  | .add => some ((left + right) % 65536)
  | .sub => some (((left : Int) - (right : Int)) % 65536).toNat
  | .mul => some ((left * right) % 65536)
  | .div => if right = 0 then none else some (left / right)
  | .mod => if right = 0 then none else some (left % right)

def bitwise (operator : Bitwise) (left right : Nat) : Nat :=
  match operator with
  | .and => left &&& right
  | .or => left ||| right
  | .xor => left ^^^ right

def shift (direction : ShiftDirection) (value amount : Nat) : Nat :=
  match direction with
  | .left => (value * 2 ^ amount) % 65536
  | .right => value / 2 ^ amount

def compare (comparison : Comparison) (left right : Nat) : Bool :=
  match comparison with
  | .equal => left = right
  | .notEqual => left ≠ right
  | .less => left < right
  | .greater => left > right

/-- The content of the test register lets a return happen. -/
def admits (guard : ReturnGuard) (test : Nat) : Bool :=
  match guard with
  | .always => true
  | .whenTrue => test = 1
  | .whenFalse => test = 0

/-- The number that bits write, most significant first. -/
def numberOfBits (bits : List Bool) : Nat :=
  bits.foldl (fun number bit => 2 * number + bit.toNat) 0

/-! ### States -/

/-- A state of the abstract machine. -/
structure State where
  /-- The number in each register; nothing under a name that no register has. -/
  registers : String → Option Nat
  inputs : List Bool
  outputs : List Bool
  /-- The open calls, latest first: the saved numbers and the return address. -/
  calls : List (List Nat × Nat)
  sleep : Nat
  next : Option Nat
  diagnostics : List Diagnostic

/-- The first instruction line at or after an address. -/
def firstFrom (program : Program) (address : Nat) : Option Nat :=
  (List.range program.lines.length).find? fun index =>
    decide (address ≤ index) && program.holdsInstruction index

namespace State

/-- The number that an operand stands for. -/
def value? (state : State) : Operand → Option Nat
  | .register name => state.registers name
  | .number value => some value
  | .pins _ _ => none

def set (state : State) (name : String) (value : Nat) : State :=
  { state with
    registers := fun other => if other = name then some value else state.registers other }

/-- Goes on at the first instruction line at or after an address. -/
def goTo (state : State) (program : Program) (address : Nat) : State :=
  { state with next := firstFrom program address }

/-- Puts a number in the accumulator. A division by zero leaves it as it is and is
recorded as a warning about the line. -/
def accumulate (state : State) (program : Program) (index : Nat) (result : Option Nat) :
    State :=
  match result with
  | some number => state.set "acc" number
  | none =>
      { state with
        diagnostics := state.diagnostics ++
          [{ severity := .warning
             line := index
             startColumn := 0
             endColumn := ((program.line? index).map Line.endColumn).getD 0
             message := "division by zero" }] }

/-- Puts the bits of a number on output pins: the last pin has the lowest bit. -/
def drive (state : State) (first last value : Nat) : State :=
  { state with
    outputs := state.outputs.mapIdx fun pin bit =>
      if first ≤ pin ∧ pin ≤ last then value.testBit (last - pin) else bit }

def observe (state : State) (first last : Nat) : List Bool :=
  ((List.zipWith (· || ·) state.inputs state.outputs).drop first).take (last + 1 - first)

def call (state : State) (config : Config) (index : Nat) : State :=
  { state with
    registers := fun name =>
      if name ∈ config.stackRegisterNames then some 0
      else if name = "ra" then some (index + 1)
      else state.registers name
    calls :=
      (config.stackRegisterNames.map fun name => (state.registers name).getD 0, index + 1) ::
        state.calls }

/-- Closes the latest call and goes on after its line. -/
def leave (state : State) (config : Config) (program : Program) : Option State :=
  match state.calls with
  | [] => none
  | (saved, address) :: older =>
      some
        { state with
          registers := fun name =>
            if name ∈ config.stackRegisterNames then
              (config.stackRegisterNames.zip saved).lookup name
            else if name = "ra" then some address
            else state.registers name
          calls := older
          next := firstFrom program address }

end State

/-- What executing the line at an index does. -/
def step (config : Config) (program : Program) (index : Nat) (state : State)
    (operation : Operation) (operands : List Operand) : Option State :=
  let passed := state.goTo program (index + 1)
  match operation, operands with
  | .arithmetic operator, [a] => do
      let left ← state.registers "acc"
      let right ← state.value? a
      return passed.accumulate program index (arithmetic operator left right)
  | .arithmetic operator, [a, b] => do
      let first ← state.value? a
      let second ← state.value? b
      return passed.accumulate program index
        (if operator = .sub then arithmetic .sub second first
          else arithmetic operator first second)
  | .move, [.register name, v] => do
      let value ← state.value? v
      return passed.set name value
  | .bitwise operator, [.register name, v] => do
      let current ← state.registers name
      let value ← state.value? v
      return passed.set name (bitwise operator current value)
  | .complement, [.register name] => do
      let current ← state.registers name
      return passed.set name (65535 - current)
  | .shift direction, [.register name, v, n] => do
      let value ← state.value? v
      let amount ← state.value? n
      return passed.set name (shift direction value amount)
  | .test comparison, [a, b] => do
      let left ← state.value? a
      let right ← state.value? b
      return passed.set "t" (if compare comparison left right then 1 else 0)
  | .jump, [target] => do
      let address ← state.value? target
      return state.goTo program address
  | .branch comparison, [target, a, b] => do
      let address ← state.value? target
      let left ← state.value? a
      let right ← state.value? b
      return if compare comparison left right then state.goTo program address else passed
  | .call, [target] => do
      let address ← state.value? target
      return (state.call config index).goTo program address
  | .giveBack guard, [] => do
      let test ← state.registers "t"
      if admits guard test then state.leave config program else return passed
  | .giveBack guard, [v] => do
      let test ← state.registers "t"
      let value ← state.value? v
      if admits guard test then (state.set "rv" value).leave config program
      else return passed
  | .sleep, [v] => do
      let steps ← state.value? v
      return { passed with sleep := steps }
  | .storePins, [.pins first last, v] => do
      let value ← state.value? v
      return passed.drive first last value
  | .loadPins, [.register name, .pins first last] => do
      let current ← state.registers name
      return passed.set name
        (current ||| numberOfBits (state.observe first last) % 65536)
  | .clearPins, [.pins first last] => return passed.drive first last 0
  | _, _ => none

end Reference

end PinMachine
