import PinMachine.Proofs.Catalog.Safety
import PinMachine.Proofs.Reference.Operands

/-!
Lines that fail. A standard operation reads everything it needs before it changes
anything, so one that fails leaves the machine as it was. Only a return with a word puts
the word in its register first and then finds that there is no call to close. What a step
leaves of an interpreter whose line failed follows from this: the record of the fault, and
the line to go on with, which is the same line if the fault is fatal.
-/

namespace PinMachine

variable {config : Config} {program : Program} {machine : Machine}
  {operation : Operation} {arguments : List Token}

namespace Action

variable {α β : Type} {action : Action α} {next : α → Action β}

/-- The action leaves every machine as it is. -/
def Reads (action : Action α) : Prop :=
  ∀ machine, (action.effect machine).2 = machine

/-- The action changes no machine on which it fails. -/
def FailsClean (action : Action α) : Prop :=
  ∀ machine fault after, action.effect machine = (.error fault, after) → after = machine

theorem Reads.effect_bind (reads : action.Reads) (machine : Machine) :
    (action >>= next).effect machine =
      match (action.effect machine).1 with
      | .ok result => (next result).effect machine
      | .error fault => (.error fault, machine) := by
  have same := reads machine
  rw [Action.effect_bind]
  cases effect : action.effect machine with
  | mk result performed =>
      rw [effect] at same
      obtain rfl : performed = machine := same
      cases result <;> rfl

theorem Reads.bind (reads : action.Reads) (later : ∀ result, (next result).Reads) :
    (action >>= next).Reads := by
  intro machine
  rw [reads.effect_bind]
  cases (action.effect machine).1 with
  | ok result => exact later result machine
  | error fault => rfl

theorem Reads.failsClean (reads : action.Reads)
    (later : ∀ result, (next result).FailsClean) : (action >>= next).FailsClean := by
  intro machine fault after fails
  rw [reads.effect_bind] at fails
  cases result : (action.effect machine).1 with
  | ok value =>
      rw [result] at fails
      exact later value machine fault after fails
  | error raised =>
      rw [result] at fails
      exact (congrArg Prod.snd fails).symm

theorem failsClean_of_ok (succeeds : ∀ machine, ∃ result, (action.effect machine).1 = .ok result) :
    action.FailsClean := by
  intro machine fault after fails
  obtain ⟨result, ok⟩ := succeeds machine
  rw [fails] at ok
  cases ok

theorem reads_ofExcept (result : Except Fault α) : (ofExcept result).Reads := by
  intro machine
  rw [effect_ofExcept]

theorem reads_register (name : String) : (register name).Reads := by
  intro machine
  rw [effect_register]

theorem reads_pins (range : PinRange) : (pins range).Reads := by
  intro machine
  rw [effect_pins]

theorem reads_wordOf (lexeme : Lexeme) : (wordOf lexeme).Reads := by
  intro machine
  rw [effect_wordOf]

theorem reads_argument (instruction : String) (arguments : List Token) (index : Nat) :
    (argument instruction arguments index).Reads := by
  intro machine
  unfold argument
  cases arguments[index]? <;> rfl

theorem reads_wordArgument (instruction : String) (arguments : List Token) (index : Nat) :
    (wordArgument instruction arguments index).Reads :=
  (reads_argument instruction arguments index).bind fun token => reads_wordOf token.lexeme

theorem reads_registerArgument (instruction : String) (arguments : List Token)
    (index : Nat) : (registerArgument instruction arguments index).Reads := by
  apply (reads_argument instruction arguments index).bind
  intro token machine
  cases token.lexeme <;> rfl

theorem reads_pinArgument (instruction : String) (arguments : List Token) (index : Nat) :
    (pinArgument instruction arguments index).Reads := by
  apply (reads_argument instruction arguments index).bind
  intro token machine
  by_cases isPin : token.kind.isPin = true
  · rw [if_pos isPin]
    exact reads_ofExcept _ machine
  · rw [if_neg isPin]
    rfl

theorem failsClean_setRegister (name : String) (value : Word) :
    (setRegister name value).FailsClean := by
  intro machine fault after fails
  rw [effect_setRegister] at fails
  unfold Machine.setRegister at fails
  cases written : machine.registers.set name value with
  | ok registers =>
      rw [written] at fails
      cases fails
  | error raised =>
      rw [written] at fails
      cases fails
      rfl

theorem failsClean_setPins (range : PinRange) (bits : List Bool) :
    (setPins range bits).FailsClean := by
  intro machine fault after fails
  rw [effect_setPins] at fails
  unfold Machine.setPins at fails
  cases written : machine.pins.writeRange range bits with
  | ok pins =>
      rw [written] at fails
      cases fails
  | error raised =>
      rw [written] at fails
      cases fails
      rfl

theorem failsClean_goTo (target : Token) : (goTo target).FailsClean := by
  unfold goTo
  cases target.lexeme with
  | labelArgument name => exact failsClean_of_ok fun machine => ⟨(), rfl⟩
  | _ =>
      apply (reads_wordOf _).failsClean
      intro address
      exact failsClean_of_ok fun machine => ⟨(), rfl⟩

theorem failsClean_arithmetic (operator : Arithmetic) (arguments : List Token) :
    ((Operation.arithmetic operator).behavior arguments).FailsClean := by
  have accumulates : ∀ left right, (ofExcept (operator.apply left right) >>=
      fun result => setRegister accumulator result).FailsClean := by
    intro left right
    apply (reads_ofExcept _).failsClean
    intro result
    exact failsClean_setRegister accumulator result
  simp only [Operation.behavior]
  by_cases two : 2 ≤ arguments.length
  · simp only [two, if_true]
    apply (reads_wordArgument _ _ _).failsClean
    intro left
    apply (reads_wordArgument _ _ _).failsClean
    intro right
    exact accumulates left right
  · simp only [two, if_false]
    apply (reads_register _).failsClean
    intro left
    apply (reads_wordArgument _ _ _).failsClean
    intro right
    exact accumulates left right

theorem failsClean_branch (comparison : Comparison) (arguments : List Token) :
    ((Operation.branch comparison).behavior arguments).FailsClean := by
  apply (reads_argument _ _ _).failsClean
  intro target
  apply (reads_wordArgument _ _ _).failsClean
  intro left
  apply (reads_wordArgument _ _ _).failsClean
  intro right
  by_cases holds : comparison.holds left right = true
  · rw [if_pos holds]
    exact failsClean_goTo target
  · rw [if_neg holds]
    exact failsClean_of_ok fun machine => ⟨(), rfl⟩

end Action

/-! ### Operations that fail -/

variable {fault : Fault} {after : Machine}

theorem Machine.Shaped.leave_eq_error (shaped : machine.Shaped config)
    (fails : machine.leave = (.error fault, after)) :
    fault = .stackUnderflow ∧ after = machine := by
  cases frames : machine.stack.frames with
  | nil =>
      unfold Machine.leave at fails
      rw [machine.popFrame_of_empty frames] at fails
      cases fails
      exact ⟨rfl, rfl⟩
  | cons frame older =>
      rw [shaped.leave_eq frame older frames] at fails
      cases fails

namespace Operation

open PinMachine.Action

/-- An operation that neither opens nor closes a call reads first and then makes its one
change. -/
theorem failsClean (operation : Operation) (arguments : List Token)
    (notCall : operation ≠ .call) (notReturn : ∀ guard, operation ≠ .giveBack guard) :
    (operation.behavior arguments).FailsClean := by
  cases operation with
  | call => exact False.elim (notCall rfl)
  | giveBack guard => exact False.elim (notReturn guard rfl)
  | arithmetic operator => exact failsClean_arithmetic operator arguments
  | move =>
      apply (reads_registerArgument _ _ _).failsClean
      intro target
      apply (reads_wordArgument _ _ _).failsClean
      intro value
      exact failsClean_setRegister target value
  | bitwise operator =>
      apply (reads_registerArgument _ _ _).failsClean
      intro target
      apply (reads_register _).failsClean
      intro current
      apply (reads_wordArgument _ _ _).failsClean
      intro operand
      exact failsClean_setRegister target _
  | complement =>
      apply (reads_registerArgument _ _ _).failsClean
      intro target
      apply (reads_register _).failsClean
      intro current
      exact failsClean_setRegister target _
  | shift direction =>
      apply (reads_registerArgument _ _ _).failsClean
      intro target
      apply (reads_wordArgument _ _ _).failsClean
      intro value
      apply (reads_wordArgument _ _ _).failsClean
      intro amount
      exact failsClean_setRegister target _
  | test comparison =>
      apply (reads_wordArgument _ _ _).failsClean
      intro left
      apply (reads_wordArgument _ _ _).failsClean
      intro right
      exact failsClean_setRegister testRegister _
  | jump =>
      apply (reads_argument _ _ _).failsClean
      intro target
      exact failsClean_goTo target
  | branch comparison => exact failsClean_branch comparison arguments
  | sleep =>
      apply (reads_wordArgument _ _ _).failsClean
      intro steps
      exact failsClean_of_ok fun machine => ⟨(), rfl⟩
  | storePins =>
      apply (reads_pinArgument _ _ _).failsClean
      intro range
      apply (reads_wordArgument _ _ _).failsClean
      intro value
      exact failsClean_setPins range _
  | loadPins =>
      apply (reads_registerArgument _ _ _).failsClean
      intro target
      apply (reads_pinArgument _ _ _).failsClean
      intro range
      apply (reads_pins _).failsClean
      intro bits
      apply (reads_register _).failsClean
      intro current
      exact failsClean_setRegister target _
  | clearPins =>
      apply (reads_pinArgument _ _ _).failsClean
      intro range
      exact failsClean_setPins range _

/-- The machine that an operation leaves when it fails with a fault. -/
inductive Fails (machine : Machine) : Operation → List Token → Fault → Machine → Prop where
  | untouched (operation : Operation) (arguments : List Token) (fault : Fault)
      (noWord : ∀ guard, operation = .giveBack guard → arguments = []) :
      Fails machine operation arguments fault machine
  /-- There is a word to give back, but no call to give it to. -/
  | uncalled (guard : ReturnGuard) (operand : Token) (value : Word)
      (word : machine.wordOf operand.lexeme = .ok value) :
      Fails machine (.giveBack guard) [operand] .stackUnderflow
        (machine.write returnValueRegister value)

theorem effect_giveBack_error (shaped : machine.Shaped config) (guard : ReturnGuard)
    (fails : ((Operation.giveBack guard).behavior arguments).effect machine =
      (.error fault, after)) :
    (Action.comeBack (Operation.giveBack guard).mnemonic arguments).effect machine =
      (.error fault, after) := by
  obtain ⟨test, held⟩ := shaped.exists_get testRegister
    (Machine.mem_registerNames_of_builtin config _ (by decide))
  rw [effect_giveBack guard arguments test held] at fails
  by_cases admitted : guard.admits test
  · rw [if_pos admitted] at fails
    exact fails
  · rw [if_neg admitted] at fails
    cases fails

/-- An operation that applies to its arguments leaves the machine as it was when it
fails, or is a return that has put its word in place. -/
theorem Applies.fails (applies : operation.Applies config program arguments)
    (shaped : machine.Shaped config)
    (fails : (operation.behavior arguments).effect machine = (.error fault, after)) :
    operation.Fails machine arguments fault after := by
  have clean : operation ≠ .call → (∀ guard, operation ≠ .giveBack guard) →
      operation.Fails machine arguments fault after := by
    intro notCall notReturn
    rw [operation.failsClean arguments notCall notReturn machine fault after fails]
    exact .untouched _ _ _ fun guard same => False.elim (notReturn guard same)
  cases applies with
  | call target place =>
      rcases shaped.pushFrame_cases with
        ⟨_address, room, pushed⟩ | ⟨raised, refused, _operational, _fatal⟩
      · obtain ⟨moved, reached⟩ := (shaped.opened room).exists_goTo place
        rw [effect_call_operation target _ pushed, reached] at fails
        cases fails
      · rw [effect_call_error target raised _ refused] at fails
        cases fails
        exact .untouched _ _ _ fun guard same => by cases same
  | giveBack guard =>
      have left := effect_giveBack_error shaped guard fails
      rw [effect_comeBack_nil] at left
      obtain ⟨rfl, rfl⟩ := shaped.leave_eq_error left
      exact .untouched _ _ _ fun _ _ => rfl
  | giveBackWord guard operand isWord =>
      obtain ⟨value, word⟩ := shaped.exists_word isWord
      have stored := shaped.setRegister_eq returnValueRegister value
        (Machine.mem_registerNames_of_builtin config _ (by decide))
      have left := effect_giveBack_error shaped guard fails
      rw [effect_comeBack_cons _ operand [] value _ word stored] at left
      obtain ⟨rfl, rfl⟩ := (shaped.write returnValueRegister value).leave_eq_error left
      exact .uncalled guard operand value word
  | _ => exact clean nofun nofun

end Operation

theorem Operation.Fails.rest (fails : operation.Fails machine arguments fault after) :
    after = { machine with registers := after.registers } := by
  cases fails with
  | untouched operation arguments fault noWord => rfl
  | uncalled guard operand value word => rfl

theorem Operation.Applies.isWord_of_giveBack {guard : ReturnGuard} {operand : Token}
    (applies : (Operation.giveBack guard).Applies config program [operand]) :
    operand.IsWord config := by
  cases applies with
  | giveBackWord _guard _operand word => exact word

/-! ### Sessions -/

/-- The line is a return with a word, and failed for want of a call. -/
def Line.ReturnsUncalled (line : Line) (fault : Fault) : Prop :=
  (∃ name ∈ ["ret", "rtt", "rtf"], line.instructionName? = some name) ∧
    line.arguments ≠ [] ∧ fault = .stackUnderflow

theorem Operation.mnemonic_mem_returns_iff (operation : Operation) :
    operation.mnemonic ∈ ["ret", "rtt", "rtf"] ↔ ∃ guard, operation = .giveBack guard := by
  cases operation with
  | arithmetic operator => cases operator <;> simp [mnemonic]
  | bitwise operator => cases operator <;> simp [mnemonic]
  | shift direction => cases direction <;> simp [mnemonic]
  | test comparison => cases comparison <;> simp [mnemonic, Comparison.suffix]
  | branch comparison => cases comparison <;> simp [mnemonic, Comparison.suffix]
  | giveBack guard => cases guard <;> simp [mnemonic]
  | _ => simp [mnemonic]

namespace Interpreter

variable {interpreter : Interpreter} {index : Nat} {line : Line}

/-- What a step leaves when the line that it executes fails. -/
structure FailedAt (program : Program) (index : Nat) (line : Line) (fault : Fault)
    (interpreter : Interpreter) : Prop where
  /-- The registers are those before the step. -/
  registers : ¬ line.ReturnsUncalled fault →
    interpreter.step.interpreter.machine.registers = interpreter.machine.registers
  /-- A return that found no call has put its word in the register for it, and has
  changed no other register. -/
  returned : line.ReturnsUncalled fault →
    ∃ operand value, line.arguments = [operand] ∧
      interpreter.machine.wordOf operand.lexeme = .ok value ∧
      ∀ name, interpreter.step.interpreter.machine.registers.get? name =
        if name = "rv" then some value else interpreter.machine.registers.get? name
  pins : interpreter.step.interpreter.machine.pins = interpreter.machine.pins
  stack : interpreter.step.interpreter.machine.stack = interpreter.machine.stack
  sleep : interpreter.step.interpreter.machine.flow.sleep = interpreter.machine.flow.sleep
  current : interpreter.step.interpreter.machine.flow.current = index
  fatal : fault.isFatal = true →
    interpreter.step.interpreter.machine.flow.next = some index ∧
      interpreter.step.result = .error fault
  mild : fault.isFatal = false →
    interpreter.step.interpreter.machine.flow.next =
        Reference.firstFrom program (index + 1) ∧
      interpreter.step.result = .ok ()
  /-- One entry is recorded, over the whole line. -/
  entries : interpreter.step.interpreter.diagnostics.entries =
    interpreter.diagnostics.entries ++
      [{ severity := if fault.isFatal then .error else .warning
         line := index
         startColumn := 0
         endColumn := line.endColumn
         message := fault.message }]

theorem Executes.fails (executes : interpreter.Executes config program index line operation)
    (fails : interpreter.focus.performLine.result = .error fault) :
    operation.Fails interpreter.focus.machine line.arguments fault
      interpreter.focus.performLine.machine := by
  apply executes.applies.fails executes.shaped
  rw [executes.performs] at fails ⊢
  exact Prod.ext fails rfl

theorem Executes.failed_registers
    (executes : interpreter.Executes config program index line operation)
    (fails : interpreter.focus.performLine.result = .error fault) :
    (¬ line.ReturnsUncalled fault ∧
        interpreter.focus.performLine.machine.registers = interpreter.machine.registers) ∨
      line.ReturnsUncalled fault ∧ ∃ operand value, line.arguments = [operand] ∧
        interpreter.machine.wordOf operand.lexeme = .ok value ∧
        interpreter.focus.performLine.machine.registers =
          interpreter.machine.registers.write returnValueRegister value := by
  have failed := executes.fails fails
  have applies := executes.applies
  have instruction := executes.instruction
  -- The cases of a failure fix the arguments and the machine, which are no variables yet.
  generalize interpreter.focus.performLine.machine = after at failed
  generalize given : line.arguments = arguments at failed applies
  cases failed with
  | untouched operation arguments fault noWord =>
      left
      refine ⟨?_, rfl⟩
      rintro ⟨⟨name, isReturn, named⟩, someWord, _underflow⟩
      rw [instruction] at named
      cases named
      obtain ⟨guard, same⟩ := operation.mnemonic_mem_returns_iff.mp isReturn
      exact someWord (given.trans (noWord guard same))
  | uncalled guard operand value word =>
      right
      rw [interpreter.wordOf_focus operand applies.isWord_of_giveBack] at word
      refine ⟨⟨⟨_, (Operation.mnemonic_mem_returns_iff _).mpr ⟨guard, rfl⟩, instruction⟩, ?_,
        rfl⟩, operand, value, rfl, word, rfl⟩
      rw [given]
      exact List.cons_ne_nil operand []

theorem Executes.failedAt (executes : interpreter.Executes config program index line operation)
    (indexed : Indexed program.lines) (executing : interpreter.phase = .executing)
    (fails : interpreter.focus.performLine.result = .error fault) :
    interpreter.FailedAt program index line fault := by
  have rest := (executes.fails fails).rest
  obtain ⟨sameProgram, current⟩ := executes.kept indexed
  have chosen : interpreter.step.interpreter.machine =
      chooseNext interpreter.focus.performLine.machine (.error fault) := by
    rw [step_of_executing executing, executeLine_machine, fails]
  have registers : interpreter.step.interpreter.machine.registers =
      interpreter.focus.performLine.machine.registers := by
    rw [chosen]
    rfl
  constructor
  · intro plain
    rw [registers]
    rcases executes.failed_registers fails with ⟨_plain, same⟩ | ⟨uncalled, _returned⟩
    · exact same
    · exact False.elim (plain uncalled)
  · intro uncalled
    rcases executes.failed_registers fails with
      ⟨plain, _same⟩ | ⟨_uncalled, operand, value, given, word, written⟩
    · exact False.elim (plain uncalled)
    · refine ⟨operand, value, given, word, ?_⟩
      intro name
      rw [registers, written]
      exact interpreter.machine.registers.get?_write _ name value
        (executes.shaped.mem_names _ (Machine.mem_registerNames_of_builtin config _ (by decide)))
  · rw [chosen, rest]
    rfl
  · rw [chosen, rest]
    rfl
  · rw [chosen, rest]
    unfold chooseNext
    split <;> rfl
  · rw [chosen, chooseNext_current, current]
  · intro fatal
    refine ⟨?_, step_result_of_fatal executing fault fails fatal⟩
    rw [chosen, rest]
    simp only [chooseNext, isFatal, fatal, Bool.true_or, if_true]
    exact executes.next
  · intro mild
    refine ⟨?_, step_result_of_mild executing fault fails mild⟩
    rw [chosen, rest]
    simp only [chooseNext, isFatal, mild, executes.settled, Bool.or_self, Bool.false_eq_true,
      if_false]
    rw [Reference.firstFrom_eq program indexed]
    simp only [Flow.settle, Flow.advance, executes.tracks.program_eq,
      focus_current index executes.next]
  · rw [step_of_executing executing, executeLine_entries, sameProgram, fails,
      focus_current index executes.next]
    simp only [recorded, faultDiagnostic]
    have place : program.line? index = some line := executes.place
    rw [place]
    rfl

/-- A line that fails leaves the machine as it was. In every session of an accepted
program, the step whose line fails keeps the registers, the pins, the calls and the idle
steps, up to the word of a return that has no call to come back from; a fatal fault stops
at the line, any other goes on after it, and one entry about the line is recorded. -/
theorem failed_line_changes_nothing (config : Config) (mode : CommentMode) (source : String)
    (made : Interpreter)
    (accepted : create config (.ofSource mode source) .standard = .ok made)
    (commands : List Command) (executing : (made.after commands).phase = .executing)
    (fault : Fault)
    (fails : (made.after commands).focus.performLine.result = .error fault) :
    ∃ index line, (made.after commands).machine.flow.next = some index ∧
      (Program.ofSource mode source).lines[index]? = some line ∧
      (made.after commands).FailedAt (.ofSource mode source) index line fault := by
  obtain ⟨index, line, operation, executes⟩ :=
    exists_executes config mode source made accepted commands executing
  have indexed := Program.ofSource_indexed mode source
  exact ⟨index, line, executes.next, executes.place,
    executes.failedAt indexed executing fails⟩

/-- The second line gives back a word although no call is open: the word stays in its
register, and nothing else changes. -/
theorem failed_line_changes_nothing_uncalled :
    ∃ made : Interpreter,
      create {} (.ofSource .skip "add 1\nret 7") .standard = .ok made ∧
      (made.after [.step]).phase = .executing ∧
      (made.after [.step]).focus.performLine.result = .error .stackUnderflow ∧
      (∃ line, (made.after [.step]).FailedAt (.ofSource .skip "add 1\nret 7") 1 line
        .stackUnderflow) ∧
      (made.after [.step]).step.result = .error .stackUnderflow ∧
      (made.after [.step]).step.interpreter.machine.flow.next = some 1 ∧
      ∀ name, (made.after [.step]).step.interpreter.machine.registers.get? name =
        if name = "rv" then some 7 else (made.after [.step]).machine.registers.get? name := by
  obtain ⟨made, accepted, tested⟩ := exists_create_of_any {}
    (.ofSource .skip "add 1\nret 7") .standard
    (fun made => (made.after [.step]).phase == .executing &&
      decide ((made.after [.step]).focus.performLine.result = .error .stackUnderflow) &&
      (made.after [.step]).machine.flow.next == some 1)
    (by decide +kernel)
  simp only [Bool.and_eq_true, beq_iff_eq, decide_eq_true_eq] at tested
  obtain ⟨⟨executing, fails⟩, second⟩ := tested
  obtain ⟨index, line, next, place, failed⟩ :=
    failed_line_changes_nothing _ _ _ made accepted _ executing _ fails
  rw [second] at next
  obtain rfl : 1 = index := Option.some.inj next
  have shown : ((Program.ofSource .skip "add 1\nret 7").lines[1]?).map (fun line =>
      (line.instructionName?, line.arguments.map Token.lexeme)) =
        some (some "ret", [.integer ['7']]) := by decide +kernel
  rw [place, Option.map_some, Option.some.injEq, Prod.mk.injEq] at shown
  have someWord : line.arguments ≠ [] := by
    intro noWord
    rw [noWord] at shown
    cases shown.2
  obtain ⟨operand, value, given, word, registers⟩ :=
    failed.returned ⟨⟨"ret", by decide, shown.1⟩, someWord, rfl⟩
  rw [given] at shown
  rw [List.singleton_inj.mp shown.2] at word
  obtain rfl : 7 = value := Except.ok.inj (Eq.trans (by rfl) word)
  exact ⟨made, accepted, executing, fails, ⟨line, failed⟩, (failed.fatal rfl).2,
    (failed.fatal rfl).1, registers⟩

end Interpreter

end PinMachine
