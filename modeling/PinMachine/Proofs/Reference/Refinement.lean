import PinMachine.Proofs.Reference.Abstraction

/-!
Refinement of the reference semantics. Executing an operation with arguments that it
applies to, and choosing the next line, takes the state that the machine stands for
to the one that the reference semantics gives, unless the run ends. So does every
step of a session of an accepted program that executes a line.
-/

namespace PinMachine

open Reference (Operand operands?_cons operands?_nil)
open Reference.State (ofMachine)
open Interpreter (chooseNext)

variable {config : Config} {program : Program} {machine : Machine}
  {diagnostics : List Diagnostic}

/-- The outcome of an operation is what the reference semantics says. A call through
a register that opening the call changes is left out. -/
def Simulated (config : Config) (program : Program) (machine : Machine)
    (diagnostics : List Diagnostic) (operation : Operation) (arguments : List Token)
    (outcome : Except Fault Unit × Machine) : Prop :=
  ∃ operands, Reference.operands? program arguments = some operands ∧
    (¬ (operation = .call ∧ ∃ name, operands = [.register name] ∧
        (name ∈ config.stackRegisterNames ∨ name = "ra")) →
      Reference.step config program machine.flow.current (ofMachine machine diagnostics)
          operation operands =
        some (ofMachine (chooseNext outcome.2 outcome.1)
          (diagnostics ++ recorded program machine.flow.current outcome.1)))

/-- The machine is about to execute a line of a program. -/
structure Machine.Ready (config : Config) (program : Program) (machine : Machine) :
    Prop where
  valid : config.Valid
  indexed : Indexed program.lines
  shaped : machine.Shaped config
  tracks : machine.Tracks program
  settled : machine.flow.redirected = false

namespace Machine

variable {operation : Operation} {arguments : List Token} {operands : List Operand}

theorem Ready.simulated_next (ready : machine.Ready config program) (after : Machine)
    (same : after.program = program) (flow : after.flow.redirected = false ∧
      after.flow.current = machine.flow.current)
    (decoded : Reference.operands? program arguments = some operands)
    (stepped : Reference.step config program machine.flow.current
        (ofMachine machine diagnostics) operation operands =
      some ((ofMachine after diagnostics).goTo program (machine.flow.current + 1))) :
    Simulated config program machine diagnostics operation arguments (.ok (), after) := by
  refine ⟨operands, decoded, fun _ => ?_⟩
  rw [stepped, recorded, List.append_nil,
    ofMachine_chooseNext (.ok ()) rfl same ready.indexed flow.1, flow.2]

theorem Ready.simulated_write (ready : machine.Ready config program)
    (decoded : Reference.operands? program arguments = some operands) (name : String)
    (value : Word) (known : name ∈ config.registerNames)
    (stepped : Reference.step config program machine.flow.current
        (ofMachine machine diagnostics) operation operands =
      some (((ofMachine machine diagnostics).goTo program (machine.flow.current + 1)).set
        name value.toNat)) :
    Simulated config program machine diagnostics operation arguments
      (machine.setRegister name value) := by
  rw [ready.shaped.setRegister_eq name value known]
  apply ready.simulated_next (machine.write name value) ready.tracks.program_eq
    ⟨ready.settled, rfl⟩ decoded
  rw [stepped, ready.shaped.ofMachine_write name value known]
  rfl

theorem Ready.simulated_accumulate (ready : machine.Ready config program)
    (decoded : Reference.operands? program arguments = some operands)
    (operator : Arithmetic) (left right : Word)
    (stepped : Reference.step config program machine.flow.current
        (ofMachine machine diagnostics) operation operands =
      some (((ofMachine machine diagnostics).goTo program
        (machine.flow.current + 1)).accumulate program machine.flow.current
          (Reference.arithmetic operator left.toNat right.toNat))) :
    Simulated config program machine diagnostics operation arguments
      (machine.accumulate (operator.apply left right)) := by
  rw [Reference.arithmetic_toNat] at stepped
  cases applied : operator.apply left right with
  | ok word =>
      rw [applied] at stepped
      exact ready.simulated_write decoded accumulator word
        (mem_registerNames_of_builtin config _ (by decide)) stepped
  | error fault =>
      rw [applied] at stepped
      obtain ⟨_operators, _zero, rfl⟩ := operator.apply_eq_error left right fault applied
      refine ⟨operands, decoded, fun _ => ?_⟩
      rw [stepped]
      change _ = some (ofMachine (chooseNext machine (.error .divisionByZero)) _)
      rw [ofMachine_chooseNext (.error .divisionByZero) rfl ready.tracks.program_eq
        ready.indexed ready.settled]
      rfl

theorem Ready.simulated_jump (ready : machine.Ready config program) (address : Nat)
    (decoded : Reference.operands? program arguments = some operands)
    (stepped : Reference.step config program machine.flow.current
        (ofMachine machine diagnostics) operation operands =
      some ((ofMachine machine diagnostics).goTo program address)) :
    Simulated config program machine diagnostics operation arguments
      (.ok (), machine.jump address) := by
  refine ⟨operands, decoded, fun _ => ?_⟩
  rw [stepped, recorded, List.append_nil,
    ofMachine_chooseNext_jump address ready.tracks.program_eq ready.indexed]

theorem Ready.simulated_leave (ready : machine.Ready config program) (start : Machine)
    (shaped : start.Shaped config) (same : start.program = program)
    (calls : start.stack.frames = machine.stack.frames)
    (mild : Interpreter.isFatal start.leave.1 = false)
    (decoded : Reference.operands? program arguments = some operands)
    (stepped : Reference.step config program machine.flow.current
        (ofMachine machine diagnostics) operation operands =
      (ofMachine start diagnostics).leave config program) :
    Simulated config program machine diagnostics operation arguments start.leave := by
  cases frames : start.stack.frames with
  | nil =>
      unfold leave at mild
      rw [start.popFrame_of_empty frames] at mild
      cases mild
  | cons frame older =>
      have fits : frame.returnAddress ≤ maxWord := by
        apply (ready.tracks.frames frame _).2.1
        rw [← calls, frames]
        exact List.mem_cons_self
      rw [shaped.leave_eq frame older frames]
      refine ⟨operands, decoded, fun _ => ?_⟩
      rw [stepped, recorded, List.append_nil]
      exact shaped.ofMachine_leave ready.valid same ready.indexed frame older frames fits

theorem Ready.simulated_drive (ready : machine.Ready config program) (range : PinRange)
    (value : Word) (forward : range.first ≤ range.last) (inside : range.last < config.pins)
    (decoded : Reference.operands? program arguments = some operands)
    (stepped : Reference.step config program machine.flow.current
        (ofMachine machine diagnostics) operation operands =
      some (((ofMachine machine diagnostics).goTo program
        (machine.flow.current + 1)).drive range.first range.last value.toNat)) :
    Simulated config program machine diagnostics operation arguments
      (machine.setPins range (wordBits value range.count)) := by
  have outputs : machine.pins.outputs.length = config.pins := ready.shaped.pins.outputs
  rw [ready.shaped.setPins_eq range _ forward inside (by simp [wordBits])]
  apply ready.simulated_next (machine.driven range _) ready.tracks.program_eq
    ⟨ready.settled, rfl⟩ decoded
  have bits := Reference.drive_wordBits machine.pins.outputs range value forward (by omega)
  rw [stepped]
  simp only [ofMachine, driven, bits]
  rfl

/-- A call is what the reference semantics says, unless its target is a register that
opening the call changes. -/
theorem Ready.simulated_call (ready : machine.Ready config program) (target : Token)
    (place : target.IsTarget config program)
    (mild : Interpreter.isFatal ((Operation.call.behavior [target]).effect machine).1 =
      false) :
    Simulated config program machine diagnostics .call [target]
      ((Operation.call.behavior [target]).effect machine) := by
  rcases ready.shaped.pushFrame_cases with
    ⟨fits, room, pushed⟩ | ⟨fault, refused, _operational, fatal⟩
  · have opened := ready.shaped.opened room
    have same : machine.opened.program = program := ready.tracks.program_eq
    obtain ⟨operand, address, decoded, stands, goes, _words⟩ :=
      opened.target_operand same ready.indexed diagnostics place
    rw [Operation.effect_call_operation target _ pushed, goes]
    refine ⟨[operand], operands?_cons decoded operands?_nil, fun kept => ?_⟩
    -- The target is read only after the call was opened; what opening leaves alone
    -- stands for the same address before.
    have before : (ofMachine machine diagnostics).value? operand = some address := by
      rw [← stands, ready.shaped.ofMachine_opened ready.valid fits]
      refine (Reference.State.value?_call _ _ operand ?_).symm
      rintro ⟨name, rfl, changed⟩
      exact kept ⟨rfl, name, rfl, changed⟩
    rw [recorded, List.append_nil, ofMachine_chooseNext_jump address same ready.indexed,
      ready.shaped.ofMachine_opened ready.valid fits]
    unfold Reference.step
    simp only [before, Option.bind_eq_bind, Option.bind_some]
    rfl
  · rw [Operation.effect_call_error target fault _ refused] at mild
    rw [show fault.isFatal = false from mild] at fatal
    cases fatal

theorem Ready.simulated_giveBack (ready : machine.Ready config program)
    (guard : ReturnGuard)
    (mild : Interpreter.isFatal
      (((Operation.giveBack guard).behavior []).effect machine).1 = false) :
    Simulated config program machine diagnostics (.giveBack guard) []
      (((Operation.giveBack guard).behavior []).effect machine) := by
  obtain ⟨test, held⟩ := ready.shaped.exists_get testRegister
    (mem_registerNames_of_builtin config _ (by decide))
  have tested : (ofMachine machine diagnostics).registers "t" = some test.toNat :=
    ofMachine_registers testRegister test held
  have operands := @operands?_nil program
  rw [Operation.effect_giveBack guard [] test held] at mild ⊢
  by_cases admitted : guard.admits test = true
  · rw [if_pos admitted, Operation.effect_comeBack_nil] at mild ⊢
    apply ready.simulated_leave machine ready.shaped ready.tracks.program_eq rfl mild operands
    unfold Reference.step
    simp only [tested, Option.bind_eq_bind, Option.bind_some,
      Reference.admits_toNat, if_pos admitted]
  · rw [if_neg admitted]
    apply ready.simulated_next machine ready.tracks.program_eq ⟨ready.settled, rfl⟩ operands
    unfold Reference.step
    simp only [tested, Option.bind_eq_bind, Option.bind_some,
      Reference.admits_toNat, if_neg admitted]
    rfl

theorem Ready.simulated_giveBackWord (ready : machine.Ready config program)
    (guard : ReturnGuard) (operand : Token) (word : operand.IsWord config)
    (mild : Interpreter.isFatal
      (((Operation.giveBack guard).behavior [operand]).effect machine).1 = false) :
    Simulated config program machine diagnostics (.giveBack guard) [operand]
      (((Operation.giveBack guard).behavior [operand]).effect machine) := by
  obtain ⟨test, held⟩ := ready.shaped.exists_get testRegister
    (mem_registerNames_of_builtin config _ (by decide))
  have tested : (ofMachine machine diagnostics).registers "t" = some test.toNat :=
    ofMachine_registers testRegister test held
  obtain ⟨shown, value, decoded, reads, stands⟩ :=
    ready.shaped.word_operand program diagnostics word
  have operands := operands?_cons decoded operands?_nil
  rw [Operation.effect_giveBack guard [operand] test held] at mild ⊢
  by_cases admitted : guard.admits test = true
  · have known := mem_registerNames_of_builtin config returnValueRegister (by decide)
    have stored := ready.shaped.setRegister_eq returnValueRegister value known
    rw [if_pos admitted, Operation.effect_comeBack_cons _ operand [] value _ reads stored]
      at mild ⊢
    apply ready.simulated_leave (machine.write returnValueRegister value)
      (ready.shaped.write _ _) ready.tracks.program_eq rfl mild operands
    rw [ready.shaped.ofMachine_write returnValueRegister value known]
    unfold Reference.step
    simp only [tested, stands, Option.bind_eq_bind, Option.bind_some,
      Reference.admits_toNat, if_pos admitted]
    rfl
  · rw [if_neg admitted]
    apply ready.simulated_next machine ready.tracks.program_eq ⟨ready.settled, rfl⟩ operands
    unfold Reference.step
    simp only [tested, stands, Option.bind_eq_bind, Option.bind_some,
      Reference.admits_toNat, if_neg admitted]
    rfl

theorem Ready.simulated_arithmeticOne (ready : machine.Ready config program)
    (operator : Arithmetic) (token : Token) (word : token.IsWord config) :
    Simulated config program machine diagnostics (.arithmetic operator) [token]
      (((Operation.arithmetic operator).behavior [token]).effect machine) := by
  obtain ⟨operand, right, decoded, reads, stands⟩ :=
    ready.shaped.word_operand program diagnostics word
  obtain ⟨left, held⟩ := ready.shaped.exists_get accumulator
    (mem_registerNames_of_builtin config _ (by decide))
  have accumulated : (ofMachine machine diagnostics).registers "acc" = some left.toNat :=
    ofMachine_registers accumulator left held
  rw [Operation.effect_arithmetic_one operator token left right held reads]
  apply ready.simulated_accumulate (operands?_cons decoded operands?_nil)
  unfold Reference.step
  simp only [accumulated, stands, Option.bind_eq_bind, Option.bind_some]
  rfl

theorem Ready.simulated_arithmeticTwo (ready : machine.Ready config program)
    (operator : Arithmetic) (first second : Token) (firstWord : first.IsWord config)
    (secondWord : second.IsWord config) :
    Simulated config program machine diagnostics (.arithmetic operator) [first, second]
      (((Operation.arithmetic operator).behavior [first, second]).effect machine) := by
  obtain ⟨firstOperand, left, firstDecoded, firstReads, firstStands⟩ :=
    ready.shaped.word_operand program diagnostics firstWord
  obtain ⟨secondOperand, right, secondDecoded, secondReads, secondStands⟩ :=
    ready.shaped.word_operand program diagnostics secondWord
  have decoded := operands?_cons firstDecoded (operands?_cons secondDecoded operands?_nil)
  rw [Operation.effect_arithmetic_two operator first second left right firstReads secondReads]
  by_cases subtracts : operator = .sub
  · rw [if_pos subtracts]
    apply ready.simulated_accumulate decoded
    unfold Reference.step
    simp only [firstStands, secondStands, Option.bind_eq_bind,
      Option.bind_some, if_pos subtracts]
    rw [subtracts]
    rfl
  · rw [if_neg subtracts]
    apply ready.simulated_accumulate decoded
    unfold Reference.step
    simp only [firstStands, secondStands, Option.bind_eq_bind,
      Option.bind_some, if_neg subtracts]
    rfl

theorem Ready.simulated_move (ready : machine.Ready config program) (target source : Token)
    (register : target.IsRegister config) (value : source.IsTarget config program)
    (mild : Interpreter.isFatal
      ((Operation.move.behavior [target, source]).effect machine).1 = false) :
    Simulated config program machine diagnostics .move [target, source]
      ((Operation.move.behavior [target, source]).effect machine) := by
  obtain ⟨name, _current, named, known, targetDecoded, _held, _stands⟩ :=
    ready.shaped.register_operand program diagnostics register
  obtain ⟨operand, address, decoded, stands, _goes, words⟩ :=
    ready.shaped.target_operand ready.tracks.program_eq ready.indexed diagnostics value
  rcases words with ⟨word, reads, rfl⟩ | ⟨fault, fails, fatal⟩
  · rw [Operation.effect_move target source name word named reads]
    apply ready.simulated_write
      (operands?_cons targetDecoded (operands?_cons decoded operands?_nil)) _ word known
    unfold Reference.step
    simp only [stands, Option.bind_eq_bind, Option.bind_some]
    rfl
  · rw [Operation.effect_move_error target source name fault named fails] at mild
    rw [show fault.isFatal = false from mild] at fatal
    cases fatal

theorem Ready.simulated_bitwise (ready : machine.Ready config program) (operator : Bitwise)
    (target source : Token) (register : target.IsRegister config)
    (word : source.IsWord config) :
    Simulated config program machine diagnostics (.bitwise operator) [target, source]
      (((Operation.bitwise operator).behavior [target, source]).effect machine) := by
  obtain ⟨name, current, named, known, targetDecoded, held, holds⟩ :=
    ready.shaped.register_operand program diagnostics register
  obtain ⟨operand, value, decoded, reads, stands⟩ :=
    ready.shaped.word_operand program diagnostics word
  rw [Operation.effect_bitwise operator target source name current value named held reads]
  apply ready.simulated_write
    (operands?_cons targetDecoded (operands?_cons decoded operands?_nil)) _ _ known
  unfold Reference.step
  simp only [holds, stands, Option.bind_eq_bind, Option.bind_some,
    Reference.bitwise_toNat]
  rfl

theorem Ready.simulated_complement (ready : machine.Ready config program) (target : Token)
    (register : target.IsRegister config) :
    Simulated config program machine diagnostics .complement [target]
      ((Operation.complement.behavior [target]).effect machine) := by
  obtain ⟨name, current, named, known, targetDecoded, held, holds⟩ :=
    ready.shaped.register_operand program diagnostics register
  rw [Operation.effect_complement target name current named held]
  apply ready.simulated_write (operands?_cons targetDecoded operands?_nil) _ _ known
  unfold Reference.step
  simp only [holds, Option.bind_eq_bind, Option.bind_some,
    Reference.complement_toNat]
  rfl

theorem Ready.simulated_shift (ready : machine.Ready config program)
    (direction : ShiftDirection) (target source count : Token)
    (register : target.IsRegister config) (word : source.IsWord config)
    (amount : count.IsWord config) :
    Simulated config program machine diagnostics (.shift direction) [target, source, count]
      (((Operation.shift direction).behavior [target, source, count]).effect machine) := by
  obtain ⟨name, _current, named, known, targetDecoded, _held, _holds⟩ :=
    ready.shaped.register_operand program diagnostics register
  obtain ⟨operand, value, decoded, reads, stands⟩ :=
    ready.shaped.word_operand program diagnostics word
  obtain ⟨places, number, countDecoded, countReads, countStands⟩ :=
    ready.shaped.word_operand program diagnostics amount
  have operands := operands?_cons targetDecoded
    (operands?_cons decoded (operands?_cons countDecoded operands?_nil))
  rw [Operation.effect_shift direction target source count name value number named reads
    countReads]
  apply ready.simulated_write operands _ _ known
  unfold Reference.step
  simp only [stands, countStands, Option.bind_eq_bind, Option.bind_some,
    Reference.shift_toNat]
  rfl

theorem Ready.simulated_test (ready : machine.Ready config program)
    (comparison : Comparison) (first second : Token) (firstWord : first.IsWord config)
    (secondWord : second.IsWord config) :
    Simulated config program machine diagnostics (.test comparison) [first, second]
      (((Operation.test comparison).behavior [first, second]).effect machine) := by
  obtain ⟨firstOperand, left, firstDecoded, firstReads, firstStands⟩ :=
    ready.shaped.word_operand program diagnostics firstWord
  obtain ⟨secondOperand, right, secondDecoded, secondReads, secondStands⟩ :=
    ready.shaped.word_operand program diagnostics secondWord
  rw [Operation.effect_test comparison first second left right firstReads secondReads]
  apply ready.simulated_write
    (operands?_cons firstDecoded (operands?_cons secondDecoded operands?_nil)) _ _
      (mem_registerNames_of_builtin config _ (by decide))
  unfold Reference.step
  simp only [firstStands, secondStands, Option.bind_eq_bind,
    Option.bind_some, Reference.compare_toNat]
  cases comparison.holds left right <;> rfl

theorem Ready.simulated_goTo (ready : machine.Ready config program) (target : Token)
    (place : target.IsTarget config program) :
    Simulated config program machine diagnostics .jump [target]
      ((Operation.jump.behavior [target]).effect machine) := by
  obtain ⟨operand, address, decoded, stands, goes, _words⟩ :=
    ready.shaped.target_operand ready.tracks.program_eq ready.indexed diagnostics place
  rw [Operation.effect_jump_operation target, goes]
  apply ready.simulated_jump address (operands?_cons decoded operands?_nil)
  unfold Reference.step
  simp only [stands, Option.bind_eq_bind, Option.bind_some]
  rfl

theorem Ready.simulated_branch (ready : machine.Ready config program)
    (comparison : Comparison) (target first second : Token)
    (place : target.IsTarget config program) (firstWord : first.IsWord config)
    (secondWord : second.IsWord config) :
    Simulated config program machine diagnostics (.branch comparison)
      [target, first, second]
      (((Operation.branch comparison).behavior [target, first, second]).effect machine) := by
  obtain ⟨operand, address, decoded, stands, goes, _words⟩ :=
    ready.shaped.target_operand ready.tracks.program_eq ready.indexed diagnostics place
  obtain ⟨firstOperand, left, firstDecoded, firstReads, firstStands⟩ :=
    ready.shaped.word_operand program diagnostics firstWord
  obtain ⟨secondOperand, right, secondDecoded, secondReads, secondStands⟩ :=
    ready.shaped.word_operand program diagnostics secondWord
  have operands := operands?_cons decoded
    (operands?_cons firstDecoded (operands?_cons secondDecoded operands?_nil))
  rw [Operation.effect_branch comparison target first second left right firstReads
    secondReads]
  by_cases holds : comparison.holds left right = true
  · rw [if_pos holds, goes]
    apply ready.simulated_jump address operands
    unfold Reference.step
    simp only [stands, firstStands, secondStands, Option.bind_eq_bind,
      Option.bind_some, Reference.compare_toNat, if_pos holds]
    rfl
  · rw [if_neg holds]
    apply ready.simulated_next machine ready.tracks.program_eq ⟨ready.settled, rfl⟩ operands
    unfold Reference.step
    simp only [stands, firstStands, secondStands, Option.bind_eq_bind,
      Option.bind_some, Reference.compare_toNat, if_neg holds]
    rfl

theorem Ready.simulated_sleep (ready : machine.Ready config program) (token : Token)
    (word : token.IsWord config) :
    Simulated config program machine diagnostics .sleep [token]
      ((Operation.sleep.behavior [token]).effect machine) := by
  obtain ⟨operand, steps, decoded, reads, stands⟩ :=
    ready.shaped.word_operand program diagnostics word
  rw [Operation.effect_sleep_operation token steps reads]
  apply ready.simulated_next (machine.sleep steps.toNat) ready.tracks.program_eq
    ⟨ready.settled, rfl⟩ (operands?_cons decoded operands?_nil)
  unfold Reference.step
  simp only [stands, Option.bind_eq_bind, Option.bind_some]
  rfl

theorem Ready.simulated_storePins (ready : machine.Ready config program)
    (target source : Token) (pins : target.IsPins config) (word : source.IsWord config) :
    Simulated config program machine diagnostics .storePins [target, source]
      ((Operation.storePins.behavior [target, source]).effect machine) := by
  obtain ⟨range, isPin, read, forward, inside⟩ := pins
  obtain ⟨operand, value, decoded, reads, stands⟩ :=
    ready.shaped.word_operand program diagnostics word
  have pinsDecoded := Reference.ofLexeme?_of_readPinRange program target.lexeme range read
  rw [Operation.effect_storePins target source isPin range read value reads]
  apply ready.simulated_drive range value forward inside
    (operands?_cons pinsDecoded (operands?_cons decoded operands?_nil))
  unfold Reference.step
  simp only [stands, Option.bind_eq_bind, Option.bind_some]
  rfl

theorem Ready.simulated_loadPins (ready : machine.Ready config program)
    (target source : Token) (register : target.IsRegister config)
    (pins : source.IsPins config) :
    Simulated config program machine diagnostics .loadPins [target, source]
      ((Operation.loadPins.behavior [target, source]).effect machine) := by
  obtain ⟨name, current, named, known, targetDecoded, held, holds⟩ :=
    ready.shaped.register_operand program diagnostics register
  obtain ⟨range, isPin, read, forward, inside⟩ := pins
  have pinsDecoded := Reference.ofLexeme?_of_readPinRange program source.lexeme range read
  have count : machine.pins.count = config.pins := ready.shaped.pins.inputs
  have observed := machine.pins.readRange_eq_ok range forward (by omega)
  rw [Operation.effect_loadPins target source name named isPin range read _ observed current
    held]
  apply ready.simulated_write
    (operands?_cons targetDecoded (operands?_cons pinsDecoded operands?_nil)) _ _ known
  unfold Reference.step
  simp only [holds, Option.bind_eq_bind, Option.bind_some, BitVec.toNat_or,
    Reference.wordOfBits_toNat]
  rfl

theorem Ready.simulated_clearPins (ready : machine.Ready config program) (target : Token)
    (pins : target.IsPins config) :
    Simulated config program machine diagnostics .clearPins [target]
      ((Operation.clearPins.behavior [target]).effect machine) := by
  obtain ⟨range, isPin, read, forward, inside⟩ := pins
  have pinsDecoded := Reference.ofLexeme?_of_readPinRange program target.lexeme range read
  have off : List.replicate range.count false = wordBits 0 range.count := by
    simp [wordBits, List.map_const']
  rw [Operation.effect_clearPins target isPin range read, off]
  apply ready.simulated_drive range 0 forward inside (operands?_cons pinsDecoded operands?_nil)
  rfl

end Machine

/-- Every operation that applies to its arguments does what the reference semantics
says, unless it ends the run. -/
theorem Operation.Applies.simulated {operation : Operation} {arguments : List Token}
    (applies : operation.Applies config program arguments)
    (ready : machine.Ready config program) (diagnostics : List Diagnostic)
    (mild : Interpreter.isFatal ((operation.behavior arguments).effect machine).1 = false) :
    Simulated config program machine diagnostics operation arguments
      ((operation.behavior arguments).effect machine) := by
  cases applies with
  | arithmeticOne operator token word => exact ready.simulated_arithmeticOne operator token word
  | arithmeticTwo operator first second firstWord secondWord =>
      exact ready.simulated_arithmeticTwo operator first second firstWord secondWord
  | move target source register value =>
      exact ready.simulated_move target source register value mild
  | bitwise operator target source register word =>
      exact ready.simulated_bitwise operator target source register word
  | complement target register => exact ready.simulated_complement target register
  | shift direction target source count register word amount =>
      exact ready.simulated_shift direction target source count register word amount
  | test comparison first second firstWord secondWord =>
      exact ready.simulated_test comparison first second firstWord secondWord
  | jump target place => exact ready.simulated_goTo target place
  | branch comparison target first second place firstWord secondWord =>
      exact ready.simulated_branch comparison target first second place firstWord secondWord
  | call target place => exact ready.simulated_call target place mild
  | giveBack guard => exact ready.simulated_giveBack guard mild
  | giveBackWord guard operand word =>
      exact ready.simulated_giveBackWord guard operand word mild
  | sleep token word => exact ready.simulated_sleep token word
  | storePins target source pins word =>
      exact ready.simulated_storePins target source pins word
  | loadPins target source register pins =>
      exact ready.simulated_loadPins target source register pins
  | clearPins target pins => exact ready.simulated_clearPins target pins

/-! ### Sessions -/

namespace Interpreter

variable {interpreter : Interpreter} {index : Nat} {line : Line} {operation : Operation}

theorem Executes.ofInterpreter_executeLine
    (executes : interpreter.Executes config program index line operation)
    (indexed : Indexed program.lines) :
    Reference.State.ofInterpreter interpreter.focus.executeLine.interpreter =
      ofMachine (chooseNext interpreter.focus.performLine.machine
          interpreter.focus.performLine.result)
        (interpreter.diagnostics.entries ++
          recorded program index interpreter.focus.performLine.result) := by
  unfold Reference.State.ofInterpreter
  rw [executeLine_machine, executeLine_entries, (executes.kept indexed).1,
    focus_current index executes.next]
  rfl

/-- The interpreter refines the reference semantics. In a session of an accepted
program, a step that executes a line without a fatal fault reads an instruction and
operands off the line and takes the state of the interpreter to the one that the
reference semantics gives. A call through a register that opening the call changes
is left out. -/
theorem step_refines_reference (config : Config) (mode : CommentMode) (source : String)
    (made : Interpreter)
    (accepted : create config (.ofSource mode source) .standard = .ok made)
    (commands : List Command) (executing : (made.after commands).phase = .executing)
    (completes : (made.after commands).step.result = .ok ()) :
    ∃ index line name operation operands,
      (made.after commands).machine.flow.next = some index ∧
      (Program.ofSource mode source).lines[index]? = some line ∧
      line.instructionName? = some name ∧
      Reference.names.lookup name = some operation ∧
      Reference.operands? (.ofSource mode source) line.arguments = some operands ∧
      (made.after commands).step.interpreter.machine.flow.current = index ∧
      (¬ (operation = .call ∧ ∃ register, operands = [.register register] ∧
          (register ∈ config.stackRegisterNames ∨ register = "ra")) →
        Reference.step config (.ofSource mode source) index
            (.ofInterpreter (made.after commands)) operation operands =
          some (.ofInterpreter (made.after commands).step.interpreter)) := by
  obtain ⟨index, line, operation, executes⟩ :=
    exists_executes config mode source made accepted commands executing
  have indexed := Program.ofSource_indexed mode source
  have ready : (made.after commands).focus.machine.Ready config (.ofSource mode source) :=
    { valid := (create_eq_ok config _ .standard made accepted).1
      indexed := indexed
      shaped := executes.shaped
      tracks := executes.tracks
      settled := executes.settled }
  rw [step_of_executing executing] at completes ⊢
  have mild := isFatal_performLine_of_executeLine _ completes
  rw [executes.performs] at mild
  obtain ⟨operands, decoded, simulates⟩ :=
    executes.applies.simulated ready (made.after commands).diagnostics.entries mild
  refine ⟨index, line, operation.mnemonic, operation, operands, executes.next,
    executes.place, executes.instruction, Reference.lookup_mnemonic operation, decoded,
    ?_, ?_⟩
  · rw [executeLine_machine, chooseNext_current]
    exact (executes.kept indexed).2
  · intro unchanged
    have simulated := simulates unchanged
    rw [focus_current index executes.next] at simulated
    rw [executes.ofInterpreter_executeLine indexed, executes.performs]
    exact simulated

/-- The second line of this program shifts a register by itself into itself. -/
theorem step_refines_reference_aliased :
    ∃ made : Interpreter,
      create { basicRegisterCount := 1 }
        (.ofSource .skip "mov $r0 3\nshl $r0 $r0 $r0\nret") .standard = .ok made ∧
      (made.after [.step]).phase = .executing ∧
      (made.after [.step]).step.result = .ok () ∧
      Reference.step { basicRegisterCount := 1 }
          (.ofSource .skip "mov $r0 3\nshl $r0 $r0 $r0\nret") 1
          (.ofInterpreter (made.after [.step])) (.shift .left)
          [.register "r0", .register "r0", .register "r0"] =
        some (.ofInterpreter (made.after [.step]).step.interpreter) := by
  obtain ⟨made, accepted, tested⟩ := exists_create_of_any { basicRegisterCount := 1 }
    (.ofSource .skip "mov $r0 3\nshl $r0 $r0 $r0\nret") .standard
    (fun made =>
      (made.after [.step]).phase == .executing && (made.after [.step]).step.result.isOk &&
        (made.after [.step]).machine.flow.next == some 1)
    (by decide +kernel)
  simp only [Bool.and_eq_true, beq_iff_eq] at tested
  obtain ⟨⟨executing, succeeds⟩, second⟩ := tested
  have completes : (made.after [.step]).step.result = .ok () := by
    cases result : (made.after [.step]).step.result with
    | ok value => rfl
    | error fault =>
        rw [result] at succeeds
        cases succeeds
  obtain ⟨index, line, name, operation, operands, next, place, instruction, named, decoded,
    _current, refines⟩ := step_refines_reference _ _ _ made accepted _ executing completes
  rw [second] at next
  obtain rfl : 1 = index := Option.some.inj next
  have shownName : ((Program.ofSource .skip
      "mov $r0 3\nshl $r0 $r0 $r0\nret").lines[1]?).bind Line.instructionName? =
        some "shl" := by decide +kernel
  have shownOperands : ((Program.ofSource .skip
      "mov $r0 3\nshl $r0 $r0 $r0\nret").lines[1]?).bind (fun line =>
        Reference.operands? (.ofSource .skip "mov $r0 3\nshl $r0 $r0 $r0\nret")
          line.arguments) =
        some [.register "r0", .register "r0", .register "r0"] := by decide +kernel
  rw [place, Option.bind_some] at shownName shownOperands
  rw [instruction] at shownName
  rw [decoded] at shownOperands
  cases shownName
  cases shownOperands
  obtain rfl : operation = .shift .left := (Option.some.inj named).symm
  refine ⟨made, accepted, executing, completes, refines ?_⟩
  rintro ⟨isCall, _register⟩
  cases isCall

end Interpreter

end PinMachine
