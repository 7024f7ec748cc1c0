import PinMachine.Interpreter

/-!
Sessions: what a host does with an interpreter, one command after the other.
-/

namespace PinMachine

inductive Command where
  | step
  | run (limit : Nat)
  | pins (operation : Pins.Operation)
  deriving DecidableEq, Repr

structure CommandReport where
  reply : Reply
  interpreter : Interpreter
  trace : Trace

/-- Carries out a command. Pin operations reach the pins only. -/
def Interpreter.obey (interpreter : Interpreter) : Command → CommandReport
  | .step =>
      let report := interpreter.step
      ⟨report.result.map fun _ => .nothing, report.interpreter, report.trace⟩
  | .run limit =>
      let report := interpreter.run limit
      ⟨report.result.map .number, report.interpreter, report.trace⟩
  | .pins operation =>
      let (result, pins) := interpreter.machine.pins.operate operation
      ⟨result.map fun bit => (bit.map Datum.bit).getD .nothing,
        { interpreter with machine := { interpreter.machine with pins := pins } },
        .empty⟩

end PinMachine
