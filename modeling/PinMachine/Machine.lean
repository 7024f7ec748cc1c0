import PinMachine.Machine.CallStack
import PinMachine.Machine.Flow
import PinMachine.Machine.Pins
import PinMachine.Machine.Registers

/-!
The machine: registers, pins, call stack and control flow of one program. This
is all that executing a line can observe or change.
-/

namespace PinMachine

/-- The state of a machine. -/
structure Machine where
  program : Program
  registers : RegisterBank
  pins : Pins
  stack : CallStack
  flow : Flow
  deriving DecidableEq, Repr

namespace Machine

def returnAddressRegister : String := "ra"

/-- The machine of a configuration before the first step of a program. -/
def start (config : Config) (program : Program) : Machine :=
  { program := program
    registers := .ofConfig config
    pins := .off config.pins
    stack := .empty config.stackDepthLimit
    flow := .start program }

def setRegister (machine : Machine) (name : String) (value : Word) :
    Except Fault Unit × Machine :=
  match machine.registers.set name value with
  | .ok written => (.ok (), { machine with registers := written })
  | .error fault => (.error fault, machine)

def setPins (machine : Machine) (range : PinRange) (bits : List Bool) :
    Except Fault Unit × Machine :=
  match machine.pins.writeRange range bits with
  | .ok written => (.ok (), { machine with pins := written })
  | .error fault => (.error fault, machine)

/-- Opens a call from the current line: saves the stack registers, sets them to
zero and puts the return address in its register. The address has to fit a word,
and this is looked at before the depth limit. -/
def pushFrame (machine : Machine) : Except Fault Unit × Machine :=
  let address := machine.flow.current + 1
  if maxWord < address then (.error (.addressOutOfRange address), machine)
  else
    match machine.stack.push ⟨machine.registers.stackWords, address⟩ with
    | .error fault => (.error fault, machine)
    | .ok stack =>
        let opened :=
          { machine with registers := machine.registers.clearStack, stack := stack }
        opened.setRegister returnAddressRegister (BitVec.ofNat 16 address)

/-- Closes the latest call: restores the stack registers that it saved, puts its
return address in the register for it, and gives that address. -/
def popFrame (machine : Machine) : Except Fault Nat × Machine :=
  match machine.stack.pop with
  | .error fault => (.error fault, machine)
  | .ok (frame, stack) =>
      let closed :=
        { machine with
          registers := machine.registers.restoreStack frame.saved
          stack := stack }
      let (result, restored) :=
        closed.setRegister returnAddressRegister
          (BitVec.ofNat 16 frame.returnAddress)
      (result.map fun _ => frame.returnAddress, restored)

/-- The line address of a label: the number, counted from one, of the line that
declares it. -/
def labelAddress? (machine : Machine) (label : String) : Option Nat :=
  (machine.program.labelLine? label).map (· + 1)

def jump (machine : Machine) (address : Nat) : Machine :=
  { machine with flow := machine.flow.jump machine.program address }

/-- Goes on after the declaration of a label; a label that is not declared ends
the program. -/
def jumpToLabel (machine : Machine) (label : String) : Machine :=
  match machine.labelAddress? label with
  | some address => machine.jump address
  | none => { machine with flow := machine.flow.terminate }

def sleep (machine : Machine) (steps : Nat) : Machine :=
  { machine with flow := machine.flow.setSleep steps }

end Machine

end PinMachine
