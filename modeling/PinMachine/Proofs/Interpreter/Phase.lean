import PinMachine.Interpreter

/-!
Phases and steps. A step of each phase is described by what it leaves: the phase
says what the flow and the counters are like, and executing a line changes the
machine, the diagnostics and the counter of steps but not the configuration or
the dispatch table.
-/

namespace PinMachine

/-- What a line adds to the diagnostics. -/
def recorded (program : Program) (index : Nat) : Except Fault Unit → List Diagnostic
  | .ok _ => []
  | .error fault => [Interpreter.faultDiagnostic program index fault]

namespace Interpreter

variable {interpreter : Interpreter}

/-- A line is executed when no error is recorded, there is a next line, no idle
step is left, and the line has waited long enough. -/
theorem phase_eq_executing_iff (interpreter : Interpreter) :
    interpreter.phase = .executing ↔
      interpreter.diagnostics.isOk = true ∧
        (∃ index, interpreter.machine.flow.next = some index) ∧
        interpreter.machine.flow.sleep = 0 ∧
        interpreter.config.steps ≤ interpreter.pendingSteps + 1 := by
  unfold phase isTerminated Flow.isTerminated Flow.isSleeping
  cases ok : interpreter.diagnostics.isOk with
  | false => simp
  | true =>
      cases next : interpreter.machine.flow.next with
      | none => simp
      | some index =>
          by_cases sleeping : 0 < interpreter.machine.flow.sleep
          · simp [sleeping]
            omega
          · have awake : interpreter.machine.flow.sleep = 0 := by omega
            by_cases early : interpreter.pendingSteps + 1 < interpreter.config.steps
            · simp [awake, early]
            · simp [awake, early]
              omega

theorem phase_eq_terminated_iff (interpreter : Interpreter) :
    interpreter.phase = .terminated ↔
      interpreter.diagnostics.isOk = true ∧ interpreter.machine.flow.next = none := by
  unfold phase isTerminated Flow.isTerminated
  cases ok : interpreter.diagnostics.isOk with
  | false => simp
  | true =>
      cases next : interpreter.machine.flow.next with
      | none => simp
      | some index =>
          simp only [Bool.not_true, Bool.false_eq_true, if_false, Option.isNone_some]
          split
          · simp
          · split <;> simp

theorem phase_eq_sleeping_iff (interpreter : Interpreter) :
    interpreter.phase = .sleeping ↔
      interpreter.diagnostics.isOk = true ∧
        (∃ index, interpreter.machine.flow.next = some index) ∧
        0 < interpreter.machine.flow.sleep := by
  unfold phase isTerminated Flow.isTerminated Flow.isSleeping
  cases ok : interpreter.diagnostics.isOk with
  | false => simp
  | true =>
      cases next : interpreter.machine.flow.next with
      | none => simp
      | some index =>
          by_cases sleeping : 0 < interpreter.machine.flow.sleep
          · simp [sleeping]
          · simp only [sleeping, Bool.not_true, Bool.false_eq_true, if_false,
              Option.isNone_some, decide_false]
            split <;> simp

theorem phase_eq_waiting_iff (interpreter : Interpreter) :
    interpreter.phase = .waiting ↔
      interpreter.diagnostics.isOk = true ∧
        (∃ index, interpreter.machine.flow.next = some index) ∧
        interpreter.machine.flow.sleep = 0 ∧
        interpreter.pendingSteps + 1 < interpreter.config.steps := by
  unfold phase isTerminated Flow.isTerminated Flow.isSleeping
  cases ok : interpreter.diagnostics.isOk with
  | false => simp
  | true =>
      cases next : interpreter.machine.flow.next with
      | none => simp
      | some index =>
          by_cases sleeping : 0 < interpreter.machine.flow.sleep
          · simp [sleeping]
            omega
          · have awake : interpreter.machine.flow.sleep = 0 := by omega
            by_cases early : interpreter.pendingSteps + 1 < interpreter.config.steps
            · simp [awake, early]
            · simp [awake, early]

theorem phase_eq_faulted_iff (interpreter : Interpreter) :
    interpreter.phase = .faulted ↔ interpreter.diagnostics.isOk = false := by
  unfold phase
  cases ok : interpreter.diagnostics.isOk with
  | false => simp
  | true =>
      simp only [Bool.not_true, Bool.false_eq_true, if_false]
      split
      · simp
      · split
        · simp
        · split <;> simp

theorem step_of_executing (executing : interpreter.phase = .executing) :
    interpreter.step = interpreter.focus.executeLine := by
  unfold step
  rw [executing]

theorem focus_current (index : Nat) (next : interpreter.machine.flow.next = some index) :
    interpreter.focus.machine.flow.current = index := by
  simp only [focus, Flow.focus, next, Option.getD_some]

theorem executeLine_config (interpreter : Interpreter) :
    interpreter.executeLine.interpreter.config = interpreter.config := by
  cases result : interpreter.performLine.result <;> simp only [executeLine, result]

theorem executeLine_dispatch (interpreter : Interpreter) :
    interpreter.executeLine.interpreter.dispatch = interpreter.dispatch := by
  cases result : interpreter.performLine.result <;> simp only [executeLine, result]

theorem executeLine_pendingSteps (interpreter : Interpreter) :
    interpreter.executeLine.interpreter.pendingSteps = 0 := by
  cases result : interpreter.performLine.result <;> simp only [executeLine, result]

theorem executeLine_entries (interpreter : Interpreter) :
    interpreter.executeLine.interpreter.diagnostics.entries =
      interpreter.diagnostics.entries ++
        recorded interpreter.performLine.machine.program interpreter.machine.flow.current
          interpreter.performLine.result := by
  cases result : interpreter.performLine.result with
  | ok value => simp only [executeLine, result, recorded, List.append_nil]
  | error fault =>
      simp only [executeLine, result, recorded]
      exact List.reverse_cons

theorem isFatal_performLine_of_executeLine (interpreter : Interpreter)
    (completes : interpreter.executeLine.result = .ok ()) :
    isFatal interpreter.performLine.result = false := by
  cases result : interpreter.performLine.result with
  | ok value => rfl
  | error fault =>
      simp only [executeLine, result] at completes
      cases fatal : fault.isFatal with
      | false => exact fatal
      | true =>
          rw [fatal, if_pos rfl] at completes
          cases completes

theorem chooseNext_current (machine : Machine) (result : Except Fault Unit) :
    (chooseNext machine result).flow.current = machine.flow.current := by
  unfold chooseNext
  split <;> rfl

theorem step_result_of_fatal (executing : interpreter.phase = .executing) (fault : Fault)
    (fails : interpreter.focus.performLine.result = .error fault)
    (fatal : fault.isFatal = true) : interpreter.step.result = .error fault := by
  rw [step_of_executing executing]
  simp only [executeLine, fails, fatal, if_true]

theorem step_result_of_mild (executing : interpreter.phase = .executing) (fault : Fault)
    (fails : interpreter.focus.performLine.result = .error fault)
    (mild : fault.isFatal = false) : interpreter.step.result = .ok () := by
  rw [step_of_executing executing]
  simp only [executeLine, fails, mild, Bool.false_eq_true, if_false]

theorem step_config (interpreter : Interpreter) :
    interpreter.step.interpreter.config = interpreter.config := by
  unfold step
  cases interpreter.phase with
  | faulted => rfl
  | terminated => rfl
  | sleeping => rfl
  | waiting => rfl
  | executing => exact interpreter.focus.executeLine_config

theorem step_dispatch (interpreter : Interpreter) :
    interpreter.step.interpreter.dispatch = interpreter.dispatch := by
  unfold step
  cases interpreter.phase with
  | faulted => rfl
  | terminated => rfl
  | sleeping => rfl
  | waiting => rfl
  | executing => exact interpreter.focus.executeLine_dispatch

end Interpreter

end PinMachine
