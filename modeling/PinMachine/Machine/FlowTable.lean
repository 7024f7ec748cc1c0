import PinMachine.Machine.Flow

/-!
Tables for flow. The next instruction line can be searched for line by line, from a
position up to the last instruction line. The table of the lines and the index of the
last instruction line are kept apart, so if the two did not agree, a search would look
behind the table; it then fails with the position that it looked at.
-/

namespace PinMachine

structure FlowTable where
  /-- For each line whether it is an instruction line. -/
  executable : Array Bool
  /-- The index of the last instruction line. -/
  last : Option Nat
  deriving DecidableEq, Repr

namespace FlowTable

def ofProgram (program : Program) : FlowTable :=
  { executable := (program.lines.map Line.isInstruction).toArray
    last := program.lastInstruction? }

/-- The first instruction line among some positions one after the other. -/
def searchFrom (table : FlowTable) (position : Nat) :
    (count : Nat) → Except Nat (Option Nat)
  | 0 => .ok none
  | count + 1 =>
      match table.executable[position]? with
      | none => .error position
      | some true => .ok (some position)
      | some false => table.searchFrom (position + 1) count

/-- The first instruction line from a position on. -/
def search (table : FlowTable) (start : Nat) : Except Nat (Option Nat) :=
  match table.last with
  | none => .ok none
  | some last =>
      if last < start then .ok none
      else table.searchFrom start (last + 1 - start)

def start (table : FlowTable) : Except Nat Flow := do
  let next ← table.search 0
  return { current := 0, next := next, redirected := false, sleep := 0 }

def jump (table : FlowTable) (flow : Flow) (address : Nat) : Except Nat Flow := do
  let next ← table.search address
  return { flow with next := next, redirected := true }

def advance (table : FlowTable) (flow : Flow) : Except Nat Flow := do
  let next ← table.search (flow.current + 1)
  return { flow with next := next }

end FlowTable

end PinMachine
