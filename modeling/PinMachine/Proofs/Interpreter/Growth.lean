import PinMachine.Proofs.Interpreter.Phase
import PinMachine.Proofs.Machine.Growth
import PinMachine.Proofs.Validation.Larger

/-!
Programs on larger machines. A program that is accepted under a configuration is accepted
under every larger one, with the same diagnostics. As long as the small machine has room
for its calls, the two interpreters go through every session in lockstep, and what only
the large machine has stays at zero.
-/

namespace PinMachine

variable {small large : Config} {program : Program}

/-- Operations are performed alike unless the narrow machine has no room for a call. -/
theorem Operation.Applies.perform_grows {operation : Operation} {arguments : List Token}
    {narrow wide : Machine} (applies : operation.Applies small program arguments)
    (within : small.Within large) (grows : narrow.Grows small large wide)
    (roomy : ∀ limit, ((operation.behavior arguments).perform narrow).result ≠
      .error (.stackOverflow limit)) :
    OutcomesAlike (Machine.Grows small large) ((operation.behavior arguments).perform narrow)
      ((operation.behavior arguments).perform wide) := by
  have shares : SharesFlow (Machine.Grows small large) := Machine.grows_sharesFlow
  by_cases isCall : operation = .call
  · subst isCall
    cases applies with
    | call target place =>
        have shape : Operation.call.behavior [target] = .call .pushFrame fun answer =>
          (Action.ofExcept answer).bind fun _ => Action.goTo target := rfl
        rw [shape] at roomy ⊢
        apply Action.perform_call_alike shares grows
        · apply grows.pushFrame within
          intro limit refused
          apply roomy limit
          change (((Action.ofExcept narrow.pushFrame.1).bind fun _ =>
            Action.goTo target).perform narrow.pushFrame.2).result = _
          rw [refused]
          rfl
        · -- What is left is a jump, which opens no call.
          intro answer
          have asks : ((Action.ofExcept answer).bind fun _ => Action.goTo target).AllRequests
              (Operation.jump.Asks small) :=
            (Action.allRequests_ofExcept _ answer).bind fun _ => Action.asks_goTo target place
          exact Action.perform_alike shares
            (fun _one _other request holds asks =>
              holds.serve within request asks (by decide)) _ asks
  · exact Action.perform_alike shares
      (fun _one _other request holds asks =>
        holds.serve within request asks isCall) _ applies.asks _ _ grows

namespace Interpreter

/-- Two interpreters of one program, the second one on a larger machine. -/
structure Outgrown (small large : Config) (program : Program) (narrow wide : Interpreter) :
    Prop extends Lockstep (Machine.Grows small large) narrow wide where
  narrow_dispatch : narrow.dispatch =
    (program.lines.map fun line => line.dispatch? .standard).toArray

variable {narrow wide : Interpreter}

theorem Outgrown.step (outgrown : Outgrown small large program narrow wide)
    (within : small.Within large) (clean : (program.validate small .standard).isOk = true)
    (roomy : ∀ limit, narrow.step.result ≠ .error (.stackOverflow limit)) :
    StepsAlike (Outgrown small large program) narrow.step wide.step := by
  have stepped := outgrown.toLockstep.step Machine.grows_sharesFlow (by
    intro executing entry found focused
    have performs := performLine_eq_perform narrow.focus entry found
    change narrow.dispatch[_]? = _ at found
    rw [outgrown.narrow_dispatch] at found
    obtain ⟨line, _member, operation, _instruction, applies, rfl⟩ :=
      program.dispatch_applies small clean _ entry found
    apply applies.perform_grows within focused
    -- An overflow of the line is fatal, and so it would be the result of the step.
    intro limit fails
    apply roomy limit
    exact step_result_of_fatal executing _ (by rw [performs]; exact fails) rfl)
  refine ⟨stepped.result, stepped.trace, { stepped.interpreter with narrow_dispatch := ?_ }⟩
  rw [step_dispatch, outgrown.narrow_dispatch]

theorem Outgrown.obey_pins (outgrown : Outgrown small large program narrow wide)
    (operation : Pins.Operation) (single : operation.AtPin small.pins) :
    (narrow.obey (.pins operation)).reply = (wide.obey (.pins operation)).reply ∧
      Outgrown small large program (narrow.obey (.pins operation)).interpreter
        (wide.obey (.pins operation)).interpreter := by
  have grows := outgrown.machine
  obtain ⟨result, driven⟩ := grows.pins.operate operation single
  refine ⟨congrArg (Except.map fun bit : Option Bool => (bit.map Datum.bit).getD .nothing) result,
    ?_⟩
  exact
    { outgrown with
      machine := { grows with
        narrow_shaped := { grows.narrow_shaped with pins := driven.narrow_wide }
        wide_shaped := { grows.wide_shaped with
          pins := grows.wide_shaped.pins.operate operation }
        pins := driven } }

theorem outgrown_coupling (within : small.Within large)
    (clean : (program.validate small .standard).isOk = true) :
    Coupling (fun fault => ∀ limit, fault ≠ .stackOverflow limit)
      (Pins.Operation.AtPin small.pins) (Outgrown small large program) where
  terminated := fun outgrown => outgrown.toLockstep.isTerminated Machine.grows_sharesFlow
  step := by
    intro narrow wide outgrown tolerable
    apply outgrown.step within clean
    intro limit fails
    exact tolerable _ fails limit rfl
  pins := fun outgrown operation single => outgrown.obey_pins operation single

theorem exists_create_of_within (within : small.Within large) (made : Interpreter)
    (accepted : create small program .standard = .ok made) :
    ∃ grown, create large program .standard = .ok grown ∧
      Outgrown small large program made grown := by
  obtain ⟨_smallValid, clean, rfl⟩ := create_eq_ok small program .standard made accepted
  have same := program.validate_of_within within .standard clean
  refine ⟨_, create_of_isOk large program .standard within.large_valid
    (by rw [same]; exact clean), ?_⟩
  exact
    { steps := within.steps
      dispatch := rfl
      machine := Machine.grows_start within program
      diagnostics := same.symm
      pendingSteps := rfl
      narrow_dispatch := rfl }

/-- A bigger machine runs the same program the same way. A program accepted under a
configuration is accepted under a larger one with the same diagnostics; and in every
session in which the host works on single pins of the small machine and that machine has
room for its calls, the answers are the same and so are the states, what only the large
machine has being at zero. -/
theorem larger_machine_agrees (small large : Config) (within : small.Within large)
    (mode : CommentMode) (source : String) (made : Interpreter)
    (accepted : create small (.ofSource mode source) .standard = .ok made) :
    (Program.ofSource mode source).validate large .standard =
        (Program.ofSource mode source).validate small .standard ∧
      ∃ grown, create large (.ofSource mode source) .standard = .ok grown ∧
        ∀ commands : List Command,
          (∀ operation, .pins operation ∈ commands → operation.AtPin small.pins) →
          (∀ answer ∈ made.answers commands, ∀ limit,
            answer.1 ≠ .error (.stackOverflow limit)) →
          grown.answers commands = made.answers commands ∧
            Lockstep (Machine.Grows small large) (made.after commands) (grown.after commands) ∧
            (grown.after commands).machine.stack.depth =
              (made.after commands).machine.stack.depth := by
  obtain ⟨_valid, clean, _made⟩ := create_eq_ok small _ .standard made accepted
  refine ⟨Program.validate_of_within within _ .standard clean, ?_⟩
  obtain ⟨grown, alsoAccepted, outgrown⟩ := exists_create_of_within within made accepted
  refine ⟨grown, alsoAccepted, ?_⟩
  intro commands single roomy
  obtain ⟨answers, reached⟩ :=
    (outgrown_coupling within clean).session commands outgrown
      (fun answer member fault fails limit overflows =>
        roomy answer member limit (by rw [fails, overflows])) single
  exact ⟨answers.symm, reached.toLockstep, reached.machine.frames.length_eq.symm⟩

/-- In the middle of a call, after a write to a pin of which the host drives the other side
and a division by zero: the small machine has one register to save, one pin, and room for
this call only. -/
theorem larger_machine_agrees_in_call :
    ∃ made grown : Interpreter,
      create { stackRegisterCount := 1, maxStackDepth := 1, pinCount := 1 }
        (.ofSource .skip "mov $s0 7\njsr fn\n:fn\nstp .p0 1\nldp $s0 .p0\ndiv 0\nret 5")
        .standard = .ok made ∧
      create
        { namedRegisters := ["x"]
          basicRegisterCount := 2
          stackRegisterCount := 3
          maxStackDepth := 4
          pinCount := 3 }
        (.ofSource .skip "mov $s0 7\njsr fn\n:fn\nstp .p0 1\nldp $s0 .p0\ndiv 0\nret 5")
        .standard = .ok grown ∧
      (made.after [.run 3, .pins (.setInput 0 true), .run 2]).machine.stack.depth = 1 ∧
      grown.answers [.run 3, .pins (.setInput 0 true), .run 2] =
        made.answers [.run 3, .pins (.setInput 0 true), .run 2] ∧
      (grown.after [.run 3, .pins (.setInput 0 true), .run 2]).machine.registers.get? "s0" =
        (made.after [.run 3, .pins (.setInput 0 true), .run 2]).machine.registers.get? "s0" ∧
      (grown.after [.run 3, .pins (.setInput 0 true), .run 2]).machine.registers.get? "s1" =
        some 0 := by
  obtain ⟨made, accepted, tested⟩ := exists_create_of_any
    { stackRegisterCount := 1, maxStackDepth := 1, pinCount := 1 }
    (.ofSource .skip "mov $s0 7\njsr fn\n:fn\nstp .p0 1\nldp $s0 .p0\ndiv 0\nret 5") .standard
    (fun made =>
      (made.after [.run 3, .pins (.setInput 0 true), .run 2]).machine.stack.depth == 1 &&
        (made.answers [.run 3, .pins (.setInput 0 true), .run 2]).all fun answer =>
          answer.1.isOk)
    (by decide +kernel)
  simp only [Bool.and_eq_true, beq_iff_eq, List.all_eq_true] at tested
  obtain ⟨depth, succeeds⟩ := tested
  obtain ⟨_validated, grown, alsoAccepted, sessions⟩ := larger_machine_agrees _
    { namedRegisters := ["x"]
      basicRegisterCount := 2
      stackRegisterCount := 3
      maxStackDepth := 4
      pinCount := 3 }
    { small_valid := by decide +kernel
      large_valid := by decide +kernel
      named := by decide
      basic := by decide
      stack := by decide
      depth := by decide
      pins := by decide
      steps := by decide }
    _ _ made accepted
  obtain ⟨answers, lockstep, _depth⟩ :=
    sessions [.run 3, .pins (.setInput 0 true), .run 2]
      (by
        intro operation member
        simp only [List.mem_cons, Command.pins.injEq, reduceCtorEq, List.not_mem_nil, or_false,
          false_or] at member
        subst member
        change 0 < Config.pins _
        decide)
      (by
        intro answer member limit overflows
        have fine := succeeds answer member
        rw [overflows] at fine
        cases fine)
  exact ⟨made, grown, accepted, alsoAccepted, depth, answers,
    lockstep.machine.registers.same "s0" (by decide +kernel),
    lockstep.machine.registers.extra "s1" (by decide +kernel) (by decide +kernel)⟩

end Interpreter

end PinMachine
