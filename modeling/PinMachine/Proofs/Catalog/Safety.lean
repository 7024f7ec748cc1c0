import Mathlib.Algebra.Group.Nat.Defs
import PinMachine.Proofs.Catalog.Execution
import PinMachine.Proofs.Catalog.Requests
import PinMachine.Proofs.Interpreter.Calls

/-!
Safety of accepted programs. An operation with arguments that it applies to, on a
machine in the shape of its configuration, can fail only for want of room or of an
open call, at an address beyond words, or at a division by zero. Every range of
pins that it asks about ends at a pin, so that no count of pins leaves the numbers
of 64 bits.
-/

namespace PinMachine

variable {config : Config} {program : Program} {machine : Machine}
  {operation : Operation} {arguments : List Token}

/-- The faults that checking a program cannot exclude. -/
inductive Fault.Operational : Fault → Prop where
  | stackOverflow (limit : Nat) : Operational (.stackOverflow limit)
  | stackUnderflow : Operational .stackUnderflow
  | addressOutOfRange (address : Nat) : Operational (.addressOutOfRange address)
  | divisionByZero : Operational .divisionByZero

theorem Fault.Operational.isFatal {fault : Fault} (operational : fault.Operational) :
    (fault.isFatal = true ∧
        ((∃ limit, fault = .stackOverflow limit) ∨ fault = .stackUnderflow ∨
          ∃ address, fault = .addressOutOfRange address)) ∨
      (fault.isFatal = false ∧ fault = .divisionByZero) := by
  cases operational with
  | stackOverflow limit => exact Or.inl ⟨rfl, Or.inl ⟨limit, rfl⟩⟩
  | stackUnderflow => exact Or.inl ⟨rfl, Or.inr (Or.inl rfl)⟩
  | addressOutOfRange address => exact Or.inl ⟨rfl, Or.inr (Or.inr ⟨address, rfl⟩)⟩
  | divisionByZero => exact Or.inr ⟨rfl, rfl⟩

/-- The result is a success or one of the faults that checking cannot exclude. -/
def Sound (result : Except Fault Unit) : Prop :=
  ∀ fault, result = .error fault → fault.Operational

private theorem sound_ok : Sound (.ok ()) := by
  intro fault raised
  cases raised

private theorem sound_error {fault : Fault} (operational : fault.Operational) :
    Sound (.error fault) := by
  intro other raised
  cases raised
  exact operational

theorem Arithmetic.apply_eq_error (operator : Arithmetic) (left right : Word) (fault : Fault)
    (fails : operator.apply left right = .error fault) :
    (operator = .div ∨ operator = .mod) ∧ right = 0 ∧ fault = .divisionByZero := by
  cases operator with
  | add => cases fails
  | sub => cases fails
  | mul => cases fails
  | div =>
      by_cases zero : right = 0
      · simp only [apply, zero, if_true] at fails
        exact ⟨Or.inl rfl, zero, (Except.error.inj fails).symm⟩
      · simp only [apply, zero, if_false] at fails
        cases fails
  | mod =>
      by_cases zero : right = 0
      · simp only [apply, zero, if_true] at fails
        exact ⟨Or.inr rfl, zero, (Except.error.inj fails).symm⟩
      · simp only [apply, zero, if_false] at fails
        cases fails

namespace Machine

/-- What an operation that goes on at the next line makes of a machine. -/
inductive Updates (machine : Machine) : Except Fault Unit × Machine → Prop where
  | wrote (name : String) (value : Word) : Updates machine (.ok (), machine.write name value)
  | drove (range : PinRange) (bits : List Bool) :
      Updates machine (.ok (), machine.driven range bits)
  | undefined : Updates machine (.error .divisionByZero, machine)

theorem Updates.sound {outcome : Except Fault Unit × Machine}
    (updates : machine.Updates outcome) : Sound outcome.1 := by
  cases updates with
  | wrote name value => exact sound_ok
  | drove range bits => exact sound_ok
  | undefined => exact sound_error .divisionByZero

theorem Shaped.setRegister_updates (shaped : machine.Shaped config) (name : String)
    (value : Word) (known : name ∈ config.registerNames) :
    machine.Updates (machine.setRegister name value) := by
  rw [shaped.setRegister_eq name value known]
  exact .wrote name value

theorem Shaped.setPins_updates (shaped : machine.Shaped config) (range : PinRange)
    (bits : List Bool) (forward : range.first ≤ range.last)
    (inside : range.last < config.pins) (width : bits.length = range.count) :
    machine.Updates (machine.setPins range bits) := by
  rw [shaped.setPins_eq range bits forward inside width]
  exact .drove range bits

theorem Shaped.accumulate_updates (shaped : machine.Shaped config) (operator : Arithmetic)
    (left right : Word) :
    machine.Updates (machine.accumulate (operator.apply left right)) := by
  cases applied : operator.apply left right with
  | ok word =>
      exact shaped.setRegister_updates accumulator word
        (mem_registerNames_of_builtin config _ (by decide))
  | error fault =>
      rw [(operator.apply_eq_error left right fault applied).2.2]
      exact .undefined

theorem Shaped.pushFrame_cases (shaped : machine.Shaped config) :
    (machine.flow.current + 1 ≤ maxWord ∧ 0 < machine.stack.room ∧
        machine.pushFrame = (.ok (), machine.opened)) ∨
      ∃ fault, machine.pushFrame = (.error fault, machine) ∧ fault.Operational ∧
        fault.isFatal = true := by
  have opening := shaped.opening
  generalize machine.pushFrame = result at opening ⊢
  cases opening with
  | opened address room => exact Or.inl ⟨address, room, rfl⟩
  | full address full => exact Or.inr ⟨_, rfl, .stackOverflow _, rfl⟩
  | tooFar address => exact Or.inr ⟨_, rfl, .addressOutOfRange _, rfl⟩

theorem Shaped.leave_sound (shaped : machine.Shaped config) : Sound machine.leave.1 := by
  cases frames : machine.stack.frames with
  | nil =>
      unfold leave
      rw [machine.popFrame_of_empty frames]
      exact sound_error .stackUnderflow
  | cons frame older =>
      rw [shaped.leave_eq frame older frames]
      exact sound_ok

theorem Shaped.comeBack_sound (shaped : machine.Shaped config) (instruction : String)
    (words : ∀ operand ∈ arguments, operand.IsWord config) :
    Sound ((Action.comeBack instruction arguments).effect machine).1 := by
  cases arguments with
  | nil =>
      rw [Operation.effect_comeBack_nil]
      exact shaped.leave_sound
  | cons operand rest =>
      obtain ⟨value, word⟩ := shaped.exists_word (words operand List.mem_cons_self)
      have stored := shaped.setRegister_eq returnValueRegister value
        (mem_registerNames_of_builtin config _ (by decide))
      rw [Operation.effect_comeBack_cons instruction operand rest value _ word stored]
      exact (shaped.write returnValueRegister value).leave_sound

theorem Shaped.giveBack_sound (shaped : machine.Shaped config) (guard : ReturnGuard)
    (words : ∀ operand ∈ arguments, operand.IsWord config) :
    Sound (((Operation.giveBack guard).behavior arguments).effect machine).1 := by
  obtain ⟨test, held⟩ := shaped.exists_get testRegister
    (mem_registerNames_of_builtin config _ (by decide))
  rw [Operation.effect_giveBack guard arguments test held]
  split
  · exact shaped.comeBack_sound _ words
  · exact sound_ok

theorem Shaped.goTo_sound (shaped : machine.Shaped config) (token : Token)
    (target : token.IsTarget config program) :
    Sound ((Action.goTo token).effect machine).1 := by
  obtain ⟨moved, reached⟩ := shaped.exists_goTo target
  rw [reached]
  exact sound_ok

end Machine

/-- The operation goes on at the next line, and at once. -/
def Operation.goesStraightOn : Operation → Bool
  | .jump | .branch _ | .call | .giveBack _ | .sleep => false
  | _ => true

theorem Token.IsTarget.isWord {token : Token} (target : token.IsTarget config program)
    (unlabelled : token.kind ≠ .labelArgument) : token.IsWord config := by
  rcases target with word | ⟨name, line, shape, _declared⟩
  · exact word
  · exact absurd (congrArg Lexeme.kind shape) unlabelled

/-- An operation that goes straight on updates registers or pins, unless the address of a
label is moved. -/
theorem Operation.Applies.updates (applies : operation.Applies config program arguments)
    (shaped : machine.Shaped config) (straight : operation.goesStraightOn = true)
    (unlabelled : operation = .move → ∀ argument ∈ arguments, argument.kind ≠ .labelArgument) :
    machine.Updates ((operation.behavior arguments).effect machine) := by
  have builtin := Machine.mem_registerNames_of_builtin config
  cases applies with
  | arithmeticOne operator operand word =>
      obtain ⟨right, rightWord⟩ := shaped.exists_word word
      obtain ⟨left, held⟩ := shaped.exists_get accumulator (builtin _ (by decide))
      rw [effect_arithmetic_one operator operand left right held rightWord]
      exact shaped.accumulate_updates operator left right
  | arithmeticTwo operator first second firstSort secondSort =>
      obtain ⟨left, leftWord⟩ := shaped.exists_word firstSort
      obtain ⟨right, rightWord⟩ := shaped.exists_word secondSort
      rw [effect_arithmetic_two operator first second left right leftWord rightWord]
      split
      · exact shaped.accumulate_updates operator right left
      · exact shaped.accumulate_updates operator left right
  | move target source register value =>
      obtain ⟨name, named, known⟩ := register
      have isWord := value.isWord (unlabelled rfl source (by simp))
      obtain ⟨word, reads⟩ := shaped.exists_word isWord
      rw [effect_move target source name word named reads]
      exact shaped.setRegister_updates _ word known
  | bitwise operator target source register word =>
      obtain ⟨name, named, known⟩ := register
      obtain ⟨current, held⟩ := shaped.exists_get _ known
      obtain ⟨value, reads⟩ := shaped.exists_word word
      rw [effect_bitwise operator target source name current value named held reads]
      exact shaped.setRegister_updates _ _ known
  | complement target register =>
      obtain ⟨name, named, known⟩ := register
      obtain ⟨current, held⟩ := shaped.exists_get _ known
      rw [effect_complement target name current named held]
      exact shaped.setRegister_updates _ _ known
  | shift direction target source count register word amount =>
      obtain ⟨name, named, known⟩ := register
      obtain ⟨value, reads⟩ := shaped.exists_word word
      obtain ⟨places, counted⟩ := shaped.exists_word amount
      rw [effect_shift direction target source count name value places named reads counted]
      exact shaped.setRegister_updates _ _ known
  | test comparison first second firstSort secondSort =>
      obtain ⟨left, leftWord⟩ := shaped.exists_word firstSort
      obtain ⟨right, rightWord⟩ := shaped.exists_word secondSort
      rw [effect_test comparison first second left right leftWord rightWord]
      exact shaped.setRegister_updates _ _ (builtin _ (by decide))
  | storePins target source pins word =>
      obtain ⟨range, isPin, read, forward, inside⟩ := pins
      obtain ⟨value, reads⟩ := shaped.exists_word word
      rw [effect_storePins target source isPin range read value reads]
      exact shaped.setPins_updates range _ forward inside (by simp [wordBits])
  | loadPins target source register pins =>
      obtain ⟨name, named, known⟩ := register
      obtain ⟨range, isPin, read, forward, inside⟩ := pins
      obtain ⟨current, held⟩ := shaped.exists_get _ known
      have count : machine.pins.count = config.pins := shaped.pins.inputs
      have observed := machine.pins.readRange_eq_ok range forward (by omega)
      rw [effect_loadPins target source name named isPin range read _ observed current held]
      exact shaped.setRegister_updates _ _ known
  | clearPins target pins =>
      obtain ⟨range, isPin, read, forward, inside⟩ := pins
      rw [effect_clearPins target isPin range read]
      exact shaped.setPins_updates range _ forward inside List.length_replicate
  | _ => cases straight

/-- An operation that applies to its arguments fails only in ways that checking
cannot exclude. -/
theorem Operation.Applies.sound (applies : operation.Applies config program arguments)
    (shaped : machine.Shaped config) (same : machine.program = program) :
    Sound ((operation.behavior arguments).effect machine).1 := by
  have straight : operation.goesStraightOn = true → operation ≠ .move →
      Sound ((operation.behavior arguments).effect machine).1 := fun goesOn other =>
    (applies.updates shaped goesOn fun isMove => absurd isMove other).sound
  cases applies with
  | move target source register value =>
      obtain ⟨name, named, known⟩ := register
      rcases shaped.target_cases same value with ⟨word, reads⟩ | ⟨address, fails⟩
      · rw [effect_move target source name word named reads]
        exact (shaped.setRegister_updates _ word known).sound
      · rw [effect_move_error target source name _ named fails]
        exact sound_error (.addressOutOfRange address)
  | jump target place =>
      rw [effect_jump_operation target]
      exact shaped.goTo_sound target place
  | branch comparison target first second place firstSort secondSort =>
      obtain ⟨left, leftWord⟩ := shaped.exists_word firstSort
      obtain ⟨right, rightWord⟩ := shaped.exists_word secondSort
      rw [effect_branch comparison target first second left right leftWord rightWord]
      split
      · exact shaped.goTo_sound target place
      · exact sound_ok
  | call target place =>
      rcases shaped.pushFrame_cases with
        ⟨_address, room, pushed⟩ | ⟨fault, refused, operational, _fatal⟩
      · rw [effect_call_operation target _ pushed]
        exact (shaped.opened room).goTo_sound target place
      · rw [effect_call_error target fault _ refused]
        exact sound_error operational
  | giveBack guard =>
      apply shaped.giveBack_sound guard
      intro operand member
      cases member
  | giveBackWord guard operand word =>
      apply shaped.giveBack_sound guard
      intro other member
      rw [List.mem_singleton.mp member]
      exact word
  | sleep operand word =>
      obtain ⟨steps, reads⟩ := shaped.exists_word word
      rw [effect_sleep_operation operand steps reads]
      exact sound_ok
  | _ => exact straight rfl (by simp)

/-! ### Ranges of pins -/

/-- The range of pins that a request is about. -/
def Request.range? : Request → Option PinRange
  | .setPins range _ => some range
  | .pins range => some range
  | _ => none

/-- The pins that the request is about, if any, are among the first so many. -/
def Request.Within (count : Nat) (request : Request) : Prop :=
  ∀ range, request.range? = some range → range.last < count

/-- All requests stay among the first so many pins. -/
def Action.StaysWithin {α : Type} (count : Nat) (action : Action α) : Prop :=
  action.AllRequests (Request.Within count)

theorem Operation.Asks.within {request : Request} (asks : operation.Asks config request) :
    request.Within config.pins := by
  intro range about
  cases request with
  | setPins written bits =>
      cases about
      exact asks.1.2
  | pins read =>
      cases about
      exact asks.2.2
  | _ => cases about

theorem Operation.Applies.staysWithin
    (applies : operation.Applies config program arguments) :
    (operation.behavior arguments).StaysWithin config.pins :=
  applies.asks.mono fun _request asks => asks.within

theorem Scope.last_lt_of_checkToken (token : Token) (range : PinRange)
    (passes : (program.scope config).checkToken token = [])
    (read : token.lexeme.readPinRange = .ok range) : range.last < config.pins := by
  have categorized : ∃ category, token.kind.category? = some category ∧
      (category = .onlyPinSingle ∨ category = .onlyPinMultiple) := by
    unfold Token.kind
    cases shape : token.lexeme with
    | pin index => exact ⟨_, rfl, Or.inl rfl⟩
    | pinRange first last => exact ⟨_, rfl, Or.inr rfl⟩
    | pinRangeLength first count => exact ⟨_, rfl, Or.inr rfl⟩
    | _ =>
        rw [shape] at read
        cases read
  obtain ⟨category, reads, single⟩ := categorized
  rcases sort_of_checkToken category reads passes with
    ⟨rfl, sort⟩ | ⟨rfl, sort⟩ | ⟨rfl, sort⟩ | ⟨pinSort, other, isPin, same, forward, inside⟩
  · rcases single with absurd | absurd <;> cases absurd
  · rcases single with absurd | absurd <;> cases absurd
  · rcases single with absurd | absurd <;> cases absurd
  · rw [read] at same
    cases same
    exact inside

theorem Config.pins_lt (config : Config) : config.pins < 2147483648 := by
  unfold Config.pins Int32.toNatClampNeg
  have bound := config.pinCount.toInt_lt
  omega

namespace Interpreter

/-- Accepted programs do not go wrong. Whatever a host does, a line that is executed
fails only for want of room or of an open call, at an address beyond words, which are
fatal, or at a division by zero, which is not; and no count of pins that it needs
leaves the numbers of 64 bits. -/
theorem accepted_line_safe (config : Config) (mode : CommentMode) (source : String)
    (made : Interpreter)
    (accepted : create config (.ofSource mode source) .standard = .ok made)
    (commands : List Command) (executing : (made.after commands).phase = .executing) :
    (∀ fault, (made.after commands).focus.performLine.result = .error fault →
      (fault.isFatal = true ∧
          ((∃ limit, fault = .stackOverflow limit) ∨ fault = .stackUnderflow ∨
            ∃ address, fault = .addressOutOfRange address)) ∨
        (fault.isFatal = false ∧ fault = .divisionByZero)) ∧
    (∀ request ∈ (made.after commands).focus.lineRequests,
      ∀ range, request.range? = some range → range.last + 1 ≤ 2 ^ 64 - 1) ∧
    ∀ line ∈ (Program.ofSource mode source).lines, line.isInstruction = true →
      ∀ token ∈ line.arguments, ∀ range, token.lexeme.readPinRange = .ok range →
        range.last + 1 ≤ 2 ^ 64 - 1 := by
  obtain ⟨index, current, operation, executes⟩ :=
    exists_executes config mode source made accepted commands executing
  have clean := (create_eq_ok config _ .standard made accepted).2.1
  have few := config.pins_lt
  refine ⟨?_, ?_, ?_⟩
  · intro fault raised
    have sound := executes.applies.sound executes.shaped executes.tracks.program_eq
    rw [executes.performs] at raised
    exact (sound fault raised).isFatal
  · intro request asked range about
    rw [executes.requests] at asked
    have inside := executes.applies.staysWithin.requests _ request asked range about
    omega
  · intro line member isInstruction token given range read
    obtain ⟨name, instruction⟩ := Option.isSome_iff_exists.mp isInstruction
    have passes := ((Program.ofSource mode source).instruction_accepted config .standard
      clean line member name instruction).2 token given
    have inside := Scope.last_lt_of_checkToken token range passes read
    omega

/-- The second line of this program divides by zero, and the fault is not fatal. -/
theorem accepted_line_safe_at_division :
    ∃ (made : Interpreter) (fault : Fault),
      create { pinCount := 2 } (.ofSource .skip "stp .p0..p1 2\ndiv $t") .standard =
        .ok made ∧
      (made.after [.step, .pins (.setInput 0 true)]).phase = .executing ∧
      (made.after [.step, .pins (.setInput 0 true)]).focus.performLine.result =
        .error fault ∧
      fault.isFatal = false ∧ fault = .divisionByZero := by
  obtain ⟨made, accepted, tested⟩ := exists_create_of_any { pinCount := 2 }
    (.ofSource .skip "stp .p0..p1 2\ndiv $t") .standard
    (fun made =>
      let reached := made.after [.step, .pins (.setInput 0 true)]
      reached.phase == .executing && !reached.focus.performLine.result.isOk &&
        !isFatal reached.focus.performLine.result)
    (by decide +kernel)
  simp only [Bool.and_eq_true, beq_iff_eq, Bool.not_eq_true'] at tested
  obtain ⟨⟨executing, fails⟩, mild⟩ := tested
  have safe := (accepted_line_safe _ _ _ made accepted _ executing).1
  cases result : (made.after [.step, .pins (.setInput 0 true)]).focus.performLine.result with
  | ok value =>
      rw [result] at fails
      cases fails
  | error fault =>
      rw [result] at mild
      rcases safe fault result with ⟨fatal, _cause⟩ | harmless
      · rw [show fault.isFatal = false from mild] at fatal
        cases fatal
      · exact ⟨made, fault, accepted, executing, result, harmless⟩

end Interpreter

end PinMachine
