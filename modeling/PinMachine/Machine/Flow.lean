import PinMachine.Program

/-!
Control flow between lines. A line address is the number of a line counted from
one; going to an address means to go on at the first instruction line after the
line with that number.
-/

namespace PinMachine

/-- Where a run stands. -/
structure Flow where
  /-- The line executed last, or being waited for. -/
  current : Nat
  /-- The line to execute next; nothing once the program has ended. -/
  next : Option Nat
  /-- The line being executed has chosen the next line itself. -/
  redirected : Bool
  /-- How many idle steps are left. -/
  sleep : Nat
  deriving DecidableEq, Repr

namespace Flow

/-- The start of a program: its first instruction line comes next. -/
def start (program : Program) : Flow :=
  { current := 0
    next := program.nextInstruction? 0
    redirected := false
    sleep := 0 }

def isTerminated (flow : Flow) : Bool :=
  flow.next.isNone

def isSleeping (flow : Flow) : Bool :=
  0 < flow.sleep

/-- Goes on at the first instruction line after a line address. -/
def jump (flow : Flow) (program : Program) (address : Nat) : Flow :=
  { flow with next := program.nextInstruction? address, redirected := true }

def terminate (flow : Flow) : Flow :=
  { flow with next := none, redirected := true }

/-- Makes the next line the current one, if there is a next line. -/
def focus (flow : Flow) : Flow :=
  { flow with current := flow.next.getD flow.current }

/-- Goes on at the first instruction line after the current one. -/
def advance (flow : Flow) (program : Program) : Flow :=
  { flow with next := program.nextInstruction? (flow.current + 1) }

def setSleep (flow : Flow) (steps : Nat) : Flow :=
  { flow with sleep := steps }

def idle (flow : Flow) : Flow :=
  { flow with sleep := flow.sleep - 1 }

/-- Forgets whether the line has chosen the next line itself. -/
def settle (flow : Flow) : Flow :=
  { flow with redirected := false }

end Flow

end PinMachine
