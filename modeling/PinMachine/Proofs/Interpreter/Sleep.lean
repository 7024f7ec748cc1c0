import PinMachine.Proofs.Catalog.Execution
import PinMachine.Proofs.Interpreter.Lifecycle

/-!
Idle steps. A line that asks for idle steps gets exactly so many of them before the line
after it, and each of them counts down and does nothing else, whatever the host does with
the pins in between. On the last instruction line of a program there is nothing left to
wait for: the program has ended with the line, no later step does anything, and the count
stays as it was asked for.
-/

namespace PinMachine

theorem Operation.Applies.of_sleep {config : Config} {program : Program}
    {arguments : List Token} (applies : Operation.sleep.Applies config program arguments) :
    ∃ operand, arguments = [operand] ∧ operand.IsWord config := by
  cases applies with
  | sleep operand isWord => exact ⟨operand, rfl, isWord⟩

namespace Interpreter

variable {interpreter start reached : Interpreter} {results : List (Except Fault Unit)}
  {left : Nat}

/-- The interpreter has so many idle steps left before a line. -/
structure Asleep (interpreter : Interpreter) (left : Nat) : Prop where
  ok : interpreter.diagnostics.isOk = true
  next : ∃ index, interpreter.machine.flow.next = some index
  left_eq : interpreter.machine.flow.sleep = left

theorem Asleep.step (asleep : interpreter.Asleep (left + 1)) :
    interpreter.step.result = .ok () ∧
      interpreter.step.interpreter =
        { interpreter with machine := interpreter.machine.sleep left } := by
  have sleeping : interpreter.phase = .sleeping := by
    rw [phase_eq_sleeping_iff, asleep.left_eq]
    exact ⟨asleep.ok, asleep.next, Nat.succ_pos left⟩
  have counted : interpreter.machine.flow.idle = interpreter.machine.flow.setSleep left := by
    unfold Flow.idle Flow.setSleep
    rw [asleep.left_eq]
    rfl
  simp only [Interpreter.step, sleeping, counted, true_and]
  rfl

theorem Asleep.leads (leads : start.Leads results reached)
    (asleep : start.Asleep (results.length + left)) : reached.Asleep left := by
  induction leads with
  | here interpreter =>
      rw [List.length_nil, Nat.zero_add] at asleep
      exact asleep
  | @step start reached results rest ih =>
      rw [List.length_cons, Nat.add_right_comm] at asleep
      apply ih
      rw [asleep.step.2]
      exact ⟨asleep.ok, asleep.next, rfl⟩
  | pins operation rest ih => exact ih ⟨asleep.ok, asleep.next, asleep.left_eq⟩

/-- The interpreter is idle for a number of steps: each of them succeeds and only counts
down, and after the last of them it is awake. -/
structure IdlesFor (start : Interpreter) (steps : Nat) : Prop where
  idle : ∀ results reached, start.Leads results reached → results.length < steps →
    reached.machine.flow.isSleeping = true ∧ reached.step.result = .ok () ∧
      reached.step.interpreter =
        { reached with machine := reached.machine.sleep (steps - (results.length + 1)) }
  awake : ∀ results reached, start.Leads results reached → results.length = steps →
    reached.machine.flow.isSleeping = false

theorem Asleep.idlesFor {steps : Nat} (asleep : start.Asleep steps) : start.IdlesFor steps where
  idle := by
    intro results reached leads early
    have remaining : results.length + (steps - (results.length + 1) + 1) = steps := by omega
    rw [← remaining] at asleep
    have there := Asleep.leads leads asleep
    refine ⟨?_, there.step⟩
    unfold Flow.isSleeping
    rw [there.left_eq]
    exact decide_eq_true (Nat.succ_pos _)
  awake := by
    rintro results reached leads rfl
    have there : reached.Asleep 0 := Asleep.leads leads asleep
    unfold Flow.isSleeping
    rw [there.left_eq]
    rfl

/-- The program has ended, and whatever the host does, idle steps stay asked for. -/
def EndsAsleep (start : Interpreter) (steps : Nat) : Prop :=
  ∀ results reached, start.Leads results reached →
    reached.isTerminated = true ∧ reached.machine.flow.sleep = steps ∧
      reached.step.result = .ok () ∧ reached.step.interpreter = reached

theorem Leads.flow_of_ended (leads : start.Leads results reached)
    (ok : start.diagnostics.isOk = true) (ended : start.machine.flow.next = none) :
    reached.machine.flow = start.machine.flow ∧ reached.diagnostics.isOk = true := by
  induction leads with
  | here interpreter => exact ⟨rfl, ok⟩
  | @step start reached results rest ih =>
      rw [(step_of_ended ok ended).2] at ih
      exact ih ok ended
  | pins operation rest ih => exact ih ok ended

theorem endsAsleep (ok : start.diagnostics.isOk = true)
    (ended : start.machine.flow.next = none) : start.EndsAsleep start.machine.flow.sleep := by
  intro results reached leads
  obtain ⟨flow, stillOk⟩ := leads.flow_of_ended ok ended
  have next : reached.machine.flow.next = none := by
    rw [flow]
    exact ended
  refine ⟨?_, by rw [flow], step_of_ended stillOk next⟩
  unfold isTerminated Flow.isTerminated
  rw [next]
  rfl

variable {config : Config} {program : Program} {index steps : Nat} {line : Line}
  {operation : Operation}

/-- A step has executed a line and goes on at the next instruction line, after so many
idle steps. -/
structure GoesOn (program : Program) (index steps : Nat) (report : StepReport) : Prop where
  completes : report.result = .ok ()
  ok : report.interpreter.diagnostics.isOk = true
  flow : report.interpreter.machine.flow =
    { current := index
      next := program.nextInstruction? (index + 1)
      redirected := false
      sleep := steps }
  rested : report.interpreter.pendingSteps = 0

/-- A line goes on at the next instruction line if it neither fails fatally nor touches the
flow, apart from asking for idle steps. -/
theorem Executes.goesOn (executes : interpreter.Executes config program index line operation)
    (executing : interpreter.phase = .executing) (indexed : Indexed program.lines)
    (mild : isFatal interpreter.focus.performLine.result = false)
    (flow : interpreter.focus.performLine.machine.flow =
      interpreter.focus.machine.flow.setSleep steps) :
    GoesOn program index steps interpreter.step := by
  obtain ⟨sameProgram, current⟩ := executes.kept indexed
  have completes : interpreter.step.result = .ok () := by
    cases result : interpreter.focus.performLine.result with
    | ok value =>
        rw [step_of_executing executing]
        simp only [executeLine, result]
    | error fault =>
        rw [result] at mild
        exact step_result_of_mild executing fault result mild
  refine ⟨completes, isOk_step (interpreter.phase_eq_executing_iff.mp executing).1 completes,
    ?_, ?_⟩
  · have settled : interpreter.focus.performLine.machine.flow.redirected = false := by
      rw [flow]
      exact executes.settled
    rw [step_of_executing executing, executeLine_machine]
    simp only [chooseNext, mild, settled, Bool.or_self, Bool.false_eq_true, if_false,
      sameProgram, Flow.advance, Flow.settle, current]
    rw [flow]
    rfl
  · rw [step_of_executing executing]
    exact executeLine_pendingSteps _

theorem Executes.goesOn_sleep
    (executes : interpreter.Executes config program index line .sleep)
    (executing : interpreter.phase = .executing) (indexed : Indexed program.lines) :
    ∃ operand value, line.arguments = [operand] ∧
      interpreter.machine.wordOf operand.lexeme = .ok value ∧
      GoesOn program index value.toNat interpreter.step := by
  obtain ⟨operand, single, isWord⟩ := executes.applies.of_sleep
  obtain ⟨value, word⟩ := executes.shaped.exists_word isWord
  have effect := Operation.effect_sleep_operation operand value word
  rw [← single] at effect
  refine ⟨operand, value, single, ?_, executes.goesOn executing indexed ?_ ?_⟩
  · rw [← wordOf_focus _ operand isWord]
    exact word
  · rw [executes.performs]
    change isFatal ((Operation.sleep.behavior line.arguments).effect _).1 = false
    rw [effect]
    rfl
  · rw [executes.performs]
    change ((Operation.sleep.behavior line.arguments).effect _).2.flow = _
    rw [effect]
    rfl

/-- The idle steps of a line are those that it asks for, if an instruction line stands after
it; otherwise the program ends with the line, and the steps stay asked for. -/
theorem sleep_idles_before_next_line (config : Config) (mode : CommentMode) (source : String)
    (made : Interpreter)
    (accepted : create config (.ofSource mode source) .standard = .ok made)
    (commands : List Command) (arguments : List Token)
    (enters : (made.after commands).Enters (.ofSource mode source) "slp" arguments) :
    ∃ operand value index,
      arguments = [operand] ∧
      (made.after commands).machine.wordOf operand.lexeme = .ok value ∧
      (made.after commands).machine.flow.next = some index ∧
      (made.after commands).step.result = .ok () ∧
      ((made.after commands).step.interpreter.machine.flow.isSleeping = true ↔
        0 < value.toNat) ∧
      ((∃ later, index < later ∧
          (Program.ofSource mode source).holdsInstruction later = true) →
        (made.after commands).step.interpreter.IdlesFor value.toNat) ∧
      ((∀ later, index < later →
          (Program.ofSource mode source).holdsInstruction later = false) →
        (made.after commands).step.interpreter.EndsAsleep value.toNat) := by
  obtain ⟨index, line, given, executes⟩ := Enters.exists_executes .sleep enters accepted
  obtain ⟨operand, value, single, word, goesOn⟩ :=
    executes.goesOn_sleep enters.1 (Program.ofSource_indexed mode source)
  have sleep := congrArg Flow.sleep goesOn.flow
  have next := congrArg Flow.next goesOn.flow
  refine ⟨operand, value, index, given.symm.trans single, word, executes.next,
    goesOn.completes, ?_, ?_, ?_⟩
  · unfold Flow.isSleeping
    rw [sleep]
    exact decide_eq_true_iff
  · rintro ⟨later, behind, holds⟩
    refine Asleep.idlesFor ⟨goesOn.ok, ?_, sleep⟩
    rw [next, ← Option.ne_none_iff_exists']
    intro absent
    have refused := (Program.nextInstruction?_eq_none_iff _ _).mp absent later behind
    rw [holds] at refused
    cases refused
  · intro last
    have ended := (Program.nextInstruction?_eq_none_iff _ _).mpr last
    have asleep := endsAsleep goesOn.ok (next.trans ended)
    rw [sleep] at asleep
    exact asleep

/-- A line asks for as many idle steps as the accumulator says, and an input comes in between;
the last line asks for three, which nobody waits for. -/
theorem sleep_idles_before_next_line_twice :
    ∃ made : Interpreter,
      create { stepsPerInstruction := 2, pinCount := 1 }
        (.ofSource .skip "mov $acc 2\nslp $acc\nadd 1\nslp 3") .standard = .ok made ∧
      (made.after [.run 2, .pins (.setInput 0 true), .step]).step.interpreter.IdlesFor 2 ∧
      (made.after [.run 9]).step.interpreter.EndsAsleep 3 := by
  obtain ⟨made, accepted, tested⟩ := exists_create_of_any
    { stepsPerInstruction := 2, pinCount := 1 }
    (.ofSource .skip "mov $acc 2\nslp $acc\nadd 1\nslp 3") .standard
    (fun made =>
      let first := made.after [.run 2, .pins (.setInput 0 true), .step]
      let second := made.after [.run 9]
      first.phase == .executing && first.machine.flow.next == some 1 &&
        first.machine.wordOf (.register "acc".toList) == .ok 2 &&
        second.phase == .executing && second.machine.flow.next == some 3 &&
        second.machine.wordOf (.integer ['3']) == .ok 3)
    (by decide +kernel)
  simp only [Bool.and_eq_true, beq_iff_eq] at tested
  obtain ⟨⟨⟨⟨⟨executing, next⟩, word⟩, executingLast⟩, nextLast⟩, wordLast⟩ := tested
  refine ⟨made, accepted, ?_, ?_⟩
  · obtain ⟨operand, value, index, given, asked, found, _completes, _sleeping, idles, _ends⟩ :=
      sleep_idles_before_next_line _ _ _ made accepted
        [.run 2, .pins (.setInput 0 true), .step] [⟨.register "acc".toList, 1, 4⟩]
        (enters_of_reads 1 executing next (by decide +kernel))
    obtain ⟨rfl, _⟩ := List.cons.inj given
    obtain rfl : 1 = index := Option.some.inj (next.symm.trans found)
    obtain rfl : 2 = value := Except.ok.inj (word.symm.trans asked)
    exact idles ⟨2, by decide, by decide +kernel⟩
  · obtain ⟨operand, value, index, given, asked, found, _completes, _sleeping, _idles, ends⟩ :=
      sleep_idles_before_next_line _ _ _ made accepted [.run 9] [⟨.integer ['3'], 3, 4⟩]
        (enters_of_reads 3 executingLast nextLast (by decide +kernel))
    obtain ⟨rfl, _⟩ := List.cons.inj given
    obtain rfl : 3 = index := Option.some.inj (nextLast.symm.trans found)
    obtain rfl : 3 = value := Except.ok.inj (wordLast.symm.trans asked)
    refine ends fun later behind => ?_
    refine Bool.eq_false_iff.mpr fun holds => ?_
    have inside := Program.lt_length_of_holdsInstruction _ later holds
    have length : (Program.ofSource .skip
        "mov $acc 2\nslp $acc\nadd 1\nslp 3").lines.length = 4 := by decide +kernel
    omega

/-- One idle step asked for by the only line of a program is never spent. -/
theorem sleep_never_ends_on_last_line :
    ∃ made : Interpreter,
      create {} (.ofSource .skip "slp 1") .standard = .ok made ∧
      made.Enters (.ofSource .skip "slp 1") "slp" [⟨.integer ['1'], 0, 4⟩] ∧
      made.machine.wordOf (.integer ['1']) = .ok 1 ∧
      (made.after [.step, .step]).machine.flow.isSleeping = true ∧
      ¬ made.step.interpreter.IdlesFor 1 := by
  obtain ⟨made, accepted, tested⟩ := exists_create_of_any {} (.ofSource .skip "slp 1") .standard
    (fun made =>
      made.phase == .executing && made.machine.flow.next == some 0 &&
        made.machine.wordOf (.integer ['1']) == .ok 1 &&
        (made.after [.step, .step]).machine.flow.isSleeping)
    (by decide +kernel)
  simp only [Bool.and_eq_true, beq_iff_eq] at tested
  obtain ⟨⟨⟨executing, next⟩, word⟩, sleeping⟩ := tested
  refine ⟨made, accepted, enters_of_reads 0 executing next (by decide +kernel), word, sleeping, ?_⟩
  intro idles
  have awake := idles.awake _ _ (.step (.here _)) rfl
  exact Bool.noConfusion (awake.symm.trans sleeping)

end Interpreter

end PinMachine
