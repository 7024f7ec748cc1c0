import PinMachine.Proofs.Catalog.Safety
import PinMachine.Proofs.Reference.Abstraction

/-!
Calls through a register. A call opens its frame before it reads its target, so the target
is read in the frame of the callee: a register that calls save stands for zero there, and
the address register for the address of the call itself. Only a register that opening a
call leaves alone leads where its caller meant.
-/

namespace PinMachine

variable {config : Config} {program : Program} {machine : Machine}

namespace Machine

theorem Shaped.exists_called_word (shaped : machine.Shaped config) (valid : config.Valid)
    (address : machine.flow.current + 1 ≤ maxWord) (name : String)
    (known : name ∈ config.registerNames) :
    ∃ held called, machine.registers.get? name = some held ∧
      machine.opened.registers.get? name = some called ∧
      called.toNat = if name ∈ config.stackRegisterNames then 0
        else if name = returnAddressRegister then machine.flow.current + 1
        else held.toNat := by
  obtain ⟨held, content⟩ := shaped.registers.exists_get? name known
  have opened := shaped.get?_opened valid name
  by_cases saved : name ∈ config.stackRegisterNames
  · rw [if_pos saved] at opened
    exact ⟨held, 0, content, opened, by rw [if_pos saved]; rfl⟩
  · rw [if_neg saved] at opened
    by_cases isAddress : name = returnAddressRegister
    · rw [if_pos isAddress] at opened
      exact ⟨held, _, content, opened,
        by rw [if_neg saved, if_pos isAddress, toNat_address _ address]⟩
    · rw [if_neg isAddress, content] at opened
      exact ⟨held, held, content, opened, by rw [if_neg saved, if_neg isAddress]⟩

theorem Shaped.effect_call_register (shaped : machine.Shaped config)
    (address : machine.flow.current + 1 ≤ maxWord) (room : 0 < machine.stack.room)
    (target : Token) (name : List Char) (named : target.lexeme = .register name)
    (called : Word)
    (content : machine.opened.registers.get? (String.ofList name) = some called) :
    (Operation.call.behavior [target]).effect machine =
      (.ok (), machine.opened.jump called.toNat) := by
  rw [Operation.effect_call_operation target _ (shaped.pushFrame_eq address room)]
  exact Action.effect_goTo_register target name called named
    ((RegisterBank.get_eq_ok_iff _ _ _).mpr content)

end Machine

theorem Token.IsTarget.known {target : Token} {name : List Char}
    (place : target.IsTarget config program) (named : target.lexeme = .register name) :
    String.ofList name ∈ config.registerNames := by
  rcases place with (⟨other, shape, known⟩ | ⟨constant, _word⟩) | ⟨label, line, shape, _declared⟩
  · rw [named] at shape
    cases shape
    exact known
  · unfold Token.kind at constant
    rw [named] at constant
    cases constant
  · rw [named] at shape
    cases shape

namespace Interpreter

variable {interpreter : Interpreter} {index : Nat} {line : Line}

theorem Executes.call_register (executes : interpreter.Executes config program index line .call)
    (valid : config.Valid) (target : Token) (name : List Char)
    (given : line.arguments = [target]) (named : target.lexeme = .register name)
    (mild : isFatal interpreter.focus.performLine.result = false) :
    ∃ held, interpreter.machine.registers.get? (String.ofList name) = some held ∧
      interpreter.focus.performLine.result = .ok () ∧
      interpreter.focus.performLine.machine = interpreter.focus.machine.opened.jump
        (if String.ofList name ∈ config.stackRegisterNames then 0
          else if String.ofList name = Machine.returnAddressRegister then index + 1
          else held.toNat) := by
  have applies := executes.applies
  rw [executes.performs] at mild ⊢
  rw [given] at applies mild ⊢
  cases applies with
  | call _target place =>
      rcases executes.shaped.pushFrame_cases with
        ⟨address, room, _pushed⟩ | ⟨fault, refused, _operational, fatal⟩
      · obtain ⟨held, called, content, inFrame, value⟩ :=
          executes.shaped.exists_called_word valid address _ (place.known named)
        have effect := executes.shaped.effect_call_register address room target name named called
          inFrame
        rw [value, focus_current index executes.next] at effect
        exact ⟨held, content, congrArg Prod.fst effect, congrArg Prod.snd effect⟩
      · -- A call that is refused fails fatally.
        have effect := Operation.effect_call_error target fault _ refused
        have raised : ((Operation.call.behavior [target]).perform
            interpreter.focus.machine).result = .error fault := congrArg Prod.fst effect
        rw [raised] at mild
        rw [show fault.isFatal = false from mild] at fatal
        cases fatal

/-- In every session of an accepted program, a call through a register that succeeds goes
on at the first instruction line from the address that the register has for the callee:
zero for a saved register, the line after the call for the address register, and what the
caller had put there for any other. -/
theorem call_reads_target_in_new_frame (config : Config) (mode : CommentMode)
    (source : String) (made : Interpreter)
    (accepted : create config (.ofSource mode source) .standard = .ok made)
    (commands : List Command) (executing : (made.after commands).phase = .executing)
    (index : Nat) (line : Line) (target : Token) (name : List Char)
    (next : (made.after commands).machine.flow.next = some index)
    (place : (Program.ofSource mode source).lines[index]? = some line)
    (instruction : line.instructionName? = some "jsr")
    (given : line.arguments = [target]) (named : target.lexeme = .register name)
    (completes : (made.after commands).step.result = .ok ()) :
    ∃ held, (made.after commands).machine.registers.get? (String.ofList name) = some held ∧
      (made.after commands).step.interpreter.machine.flow.next =
        Reference.firstFrom (.ofSource mode source)
          (if String.ofList name ∈ config.stackRegisterNames then 0
            else if String.ofList name = "ra" then index + 1 else held.toNat) := by
  obtain ⟨found, current, operation, executes⟩ :=
    exists_executes config mode source made accepted commands executing
  obtain rfl : found = index := Option.some.inj (executes.next.symm.trans next)
  obtain rfl : current = line := Option.some.inj (executes.place.symm.trans place)
  obtain rfl : operation = .call := by
    have looked := Reference.lookup_mnemonic operation
    rw [Option.some.inj (executes.instruction.symm.trans instruction)] at looked
    exact (Option.some.inj looked).symm
  rw [step_of_executing executing] at completes ⊢
  have mild := isFatal_performLine_of_executeLine _ completes
  have valid := (create_eq_ok config _ .standard made accepted).1
  obtain ⟨held, content, succeeds, left⟩ :=
    executes.call_register valid target name given named mild
  refine ⟨held, content, ?_⟩
  rw [executeLine_machine, succeeds, left,
    Reference.firstFrom_eq _ (Program.ofSource_indexed mode source), ← executes.tracks.program_eq]
  rfl

/-- A register that no call saves leads where the caller meant: to the last line. -/
theorem call_reads_target_in_new_frame_basic :
    ∃ made : Interpreter,
      create { basicRegisterCount := 1, maxStackDepth := 1 }
        (.ofSource .skip "mov $r0 3\njsr $r0\nadd 1\nadd 2") .standard = .ok made ∧
      (made.after [.step]).phase = .executing ∧
      (made.after [.step]).step.result = .ok () ∧
      (made.after [.step]).machine.registers.get? "r0" = some 3 ∧
      (made.after [.step]).step.interpreter.machine.flow.next = some 3 := by
  obtain ⟨made, accepted, tested⟩ := exists_create_of_any
    { basicRegisterCount := 1, maxStackDepth := 1 }
    (.ofSource .skip "mov $r0 3\njsr $r0\nadd 1\nadd 2") .standard
    (fun made =>
      (made.after [.step]).phase == .executing &&
      decide ((made.after [.step]).step.result = .ok ()) &&
      decide ((made.after [.step]).machine.registers.get? "r0" = some 3) &&
      (made.after [.step]).machine.flow.next == some 1)
    (by decide +kernel)
  simp only [Bool.and_eq_true, beq_iff_eq, decide_eq_true_eq] at tested
  obtain ⟨⟨⟨executing, completes⟩, holds⟩, second⟩ := tested
  have shown : ((Program.ofSource .skip
      "mov $r0 3\njsr $r0\nadd 1\nadd 2").lines[1]?).map (fun line =>
        (line.instructionName?, line.arguments.map Token.lexeme)) =
      some (some "jsr", [.register ['r', '0']]) := by decide +kernel
  obtain ⟨line, place, reads⟩ := Option.map_eq_some_iff.mp shown
  simp only [Prod.mk.injEq] at reads
  obtain ⟨instruction, lexemes⟩ := reads
  obtain ⟨target, given, named⟩ := List.map_eq_singleton_iff.mp lexemes
  obtain ⟨held, content, next⟩ := call_reads_target_in_new_frame _ _ _ made accepted _
    executing 1 line target ['r', '0'] second place instruction given named completes
  obtain rfl : 3 = held := Option.some.inj (holds.symm.trans content)
  exact ⟨made, accepted, executing, completes, holds, next.trans (by decide +kernel)⟩

/-- A register that calls save is zero when the call reads it: the caller meant the
fourth line and gets to the first. -/
theorem call_forgets_saved_target :
    ∃ made : Interpreter,
      create { stackRegisterCount := 1, maxStackDepth := 1 }
        (.ofSource .skip "mov $s0 3\njsr $s0\nadd 1\nadd 2\nadd 4") .standard = .ok made ∧
      (made.after [.step]).machine.flow.next = some 1 ∧
      (made.after [.step]).machine.registers.get? "s0" = some 3 ∧
      (made.after [.step]).phase = .executing ∧
      (made.after [.step]).step.result = .ok () ∧
      (made.after [.step]).step.interpreter.machine.flow.next = some 0 ∧
      Reference.firstFrom (.ofSource .skip "mov $s0 3\njsr $s0\nadd 1\nadd 2\nadd 4") 3 =
        some 3 := by
  obtain ⟨made, accepted, tested⟩ := exists_create_of_any
    { stackRegisterCount := 1, maxStackDepth := 1 }
    (.ofSource .skip "mov $s0 3\njsr $s0\nadd 1\nadd 2\nadd 4") .standard
    (fun made =>
      (made.after [.step]).machine.flow.next == some 1 &&
      decide ((made.after [.step]).machine.registers.get? "s0" = some 3) &&
      (made.after [.step]).phase == .executing &&
      decide ((made.after [.step]).step.result = .ok ()) &&
      (made.after [.step]).step.interpreter.machine.flow.next == some 0)
    (by decide +kernel)
  simp only [Bool.and_eq_true, beq_iff_eq, decide_eq_true_eq] at tested
  obtain ⟨⟨⟨⟨second, holds⟩, executing⟩, completes⟩, first⟩ := tested
  exact ⟨made, accepted, second, holds, executing, completes, first, by decide +kernel⟩

end Interpreter

end PinMachine
