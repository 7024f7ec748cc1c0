import PinMachine.Catalog.Standard
import PinMachine.Proofs.Catalog.Behavior
import PinMachine.Proofs.Machine.Shape
import PinMachine.Proofs.Validation.Accepted

/-!
Calls and returns. Opening a call fails for want of room exactly at the depth
limit. As long as the depth does not fall back to that of the caller, the frame of
the call and the frames below it stay where they are, whatever happens above them;
so the return that closes the call finds what the call has saved.
-/

namespace PinMachine

namespace Machine

variable {config : Config} {machine : Machine}

/-- The depth never falls below a floor while the events happen. -/
def StaysAbove (floor : Nat) : Machine → List Event → Prop
  | machine, [] => floor ≤ machine.stack.depth
  | machine, event :: rest =>
      floor ≤ machine.stack.depth ∧ StaysAbove floor (machine.undergo event) rest

instance decidableStaysAbove (floor : Nat) :
    (machine : Machine) → (events : List Event) → Decidable (StaysAbove floor machine events)
  | machine, [] => inferInstanceAs (Decidable (floor ≤ machine.stack.depth))
  | machine, event :: rest =>
      have := decidableStaysAbove floor (machine.undergo event) rest
      inferInstanceAs (Decidable (floor ≤ machine.stack.depth ∧ _))

theorem StaysAbove.le_depth {floor : Nat} {events : List Event}
    (above : StaysAbove floor machine events) : floor ≤ machine.stack.depth := by
  cases events with
  | nil => exact above
  | cons event rest => exact above.1

theorem suffix_of_served (after : Machine) (served : Served machine after)
    (base : List Frame) (below : base <:+ machine.stack.frames)
    (above : base.length ≤ after.stack.depth) : base <:+ after.stack.frames := by
  cases served with
  | called address room => exact List.suffix_cons_iff.mpr (Or.inr below)
  | returned frame older frames =>
      rw [frames] at below
      rcases List.suffix_cons_iff.mp below with whole | rest
      · -- The base would be all frames, but the frame just closed is not above the floor.
        have length := congrArg List.length whole
        rw [List.length_cons] at length
        change base.length ≤ older.length at above
        omega
      · exact rest
  | _ => exact below

theorem Shaped.suffix_undergo (shaped : machine.Shaped config) (event : Event)
    (base : List Frame) (below : base <:+ machine.stack.frames)
    (above : base.length ≤ (machine.undergo event).stack.depth) :
    base <:+ (machine.undergo event).stack.frames := by
  cases event with
  | request request => exact suffix_of_served _ (shaped.served request) base below above
  | enterLine => exact below
  | leaveLine result => exact below
  | idle => exact below
  | pins operation => exact below

/-- Whatever happens above a floor, the frames below it stay. -/
theorem Shaped.suffix_after (shaped : machine.Shaped config) (events : List Event)
    (base : List Frame) (below : base <:+ machine.stack.frames)
    (above : StaysAbove base.length machine events) :
    base <:+ (machine.after events).stack.frames := by
  induction events generalizing machine with
  | nil => exact below
  | cons event rest ih =>
      have later : StaysAbove base.length (machine.undergo event) rest := above.2
      have kept := shaped.suffix_undergo event base below later.le_depth
      exact ih (shaped.undergo event) kept later

theorem Shaped.undergo_program (shaped : machine.Shaped config) (event : Event) :
    (machine.undergo event).program = machine.program := by
  cases event with
  | request request =>
      have served := shaped.served request
      change (machine.serve request).2.program = machine.program
      generalize (machine.serve request).2 = after at served
      cases served <;> rfl
  | enterLine => rfl
  | leaveLine result => rfl
  | idle => rfl
  | pins operation => rfl

theorem Shaped.after_program (shaped : machine.Shaped config) (events : List Event) :
    (machine.after events).program = machine.program := by
  induction events generalizing machine with
  | nil => rfl
  | cons event events ih =>
      exact (ih (shaped.undergo event)).trans (shaped.undergo_program event)

theorem Shaped.pushFrame_eq_ok (shaped : machine.Shaped config) (called : Machine)
    (pushed : machine.pushFrame = (.ok (), called)) :
    machine.flow.current + 1 ≤ maxWord ∧ 0 < machine.stack.room ∧
      called = machine.opened := by
  have opening := shaped.opening
  rw [pushed] at opening
  cases opening with
  | opened address room => exact ⟨address, room, rfl⟩

/-- The address is looked at before the room. -/
theorem Shaped.pushFrame_eq_error_iff (shaped : machine.Shaped config) (fault : Fault) :
    machine.pushFrame.1 = .error fault ↔
      (65535 < machine.flow.current + 1 ∧
        fault = .addressOutOfRange (machine.flow.current + 1)) ∨
      (machine.flow.current + 1 ≤ 65535 ∧ machine.stack.depth = config.stackDepthLimit ∧
        fault = .stackOverflow config.stackDepthLimit) := by
  have opening := shaped.opening
  have limit : machine.stack.depth + machine.stack.room = config.stackDepthLimit :=
    shaped.limit
  have named : machine.stack.limit = config.stackDepthLimit := shaped.limit
  generalize machine.pushFrame = result at opening
  cases opening with
  | opened address room =>
      have fits : machine.flow.current + 1 ≤ 65535 := address
      constructor
      · intro fails
        cases fails
      · rintro (⟨tooFar, _fault⟩ | ⟨_fits, full, _fault⟩) <;> omega
  | full address full =>
      have fits : machine.flow.current + 1 ≤ 65535 := address
      rw [named]
      constructor
      · intro fails
        exact Or.inr ⟨fits, by omega, (Except.error.inj fails).symm⟩
      · rintro (⟨tooFar, _fault⟩ | ⟨_fits, _full, rfl⟩)
        · omega
        · rfl
  | tooFar address =>
      have tooFar : 65535 < machine.flow.current + 1 := address
      constructor
      · intro fails
        exact Or.inl ⟨tooFar, (Except.error.inj fails).symm⟩
      · rintro (⟨_tooFar, rfl⟩ | ⟨fits, _full, _fault⟩)
        · rfl
        · omega

theorem Shaped.pushFrame_overflow_iff (shaped : machine.Shaped config) :
    (∃ limit, machine.pushFrame.1 = .error (.stackOverflow limit)) ↔
      machine.flow.current + 1 ≤ 65535 ∧ machine.stack.depth = config.stackDepthLimit := by
  constructor
  · rintro ⟨limit, overflow⟩
    rcases (shaped.pushFrame_eq_error_iff _).mp overflow with ⟨_tooFar, other⟩ | ⟨fits, full, _same⟩
    · cases other
    · exact ⟨fits, full⟩
  · rintro ⟨fits, full⟩
    exact ⟨_, (shaped.pushFrame_eq_error_iff _).mpr (Or.inr ⟨fits, full, rfl⟩)⟩

theorem returnAddressRegister_not_mem_stack (valid : config.Valid) :
    returnAddressRegister ∉ config.stackRegisterNames := by
  intro member
  apply valid.not_mem_general_of_mem_stack _ member
  unfold Config.generalRegisterNames
  exact List.mem_append_left _ (List.mem_append_left _ (by decide))

theorem Shaped.get?_opened (shaped : machine.Shaped config) (valid : config.Valid)
    (name : String) :
    machine.opened.registers.get? name =
      if name ∈ config.stackRegisterNames then some 0
      else if name = returnAddressRegister then
        some (BitVec.ofNat 16 (machine.flow.current + 1))
      else machine.registers.get? name := by
  have known : returnAddressRegister ∈ machine.registers.clearStack.names := by
    rw [shaped.registers.clearStack.names_eq]
    exact mem_registerNames_of_builtin config _ (by decide)
  change (machine.registers.clearStack.write returnAddressRegister _).get? name = _
  rw [RegisterBank.get?_write _ _ _ _ known, shaped.registers.get?_clearStack valid]
  by_cases isAddress : name = returnAddressRegister
  · rw [if_pos isAddress, if_pos isAddress, isAddress,
      if_neg (returnAddressRegister_not_mem_stack valid)]
  · rw [if_neg isAddress, if_neg isAddress]

theorem Shaped.get?_closed (shaped : machine.Shaped config) (valid : config.Valid)
    (frame : Frame) (older : List Frame) (frames : machine.stack.frames = frame :: older)
    (name : String) :
    (machine.closed frame older).registers.get? name =
      if name ∈ config.stackRegisterNames then
        (config.stackRegisterNames.zip frame.saved).lookup name
      else if name = returnAddressRegister then
        some (BitVec.ofNat 16 frame.returnAddress)
      else machine.registers.get? name := by
  have width : frame.saved.length = config.stackRegisters := by
    apply shaped.saved
    rw [frames]
    exact List.mem_cons_self
  have known :
      returnAddressRegister ∈ (machine.registers.restoreStack frame.saved).names := by
    rw [(shaped.registers.restoreStack frame.saved width).names_eq]
    exact mem_registerNames_of_builtin config _ (by decide)
  change ((machine.registers.restoreStack frame.saved).write
    returnAddressRegister _).get? name = _
  rw [RegisterBank.get?_write _ _ _ _ known,
    shaped.registers.get?_restoreStack valid frame.saved width]
  by_cases isAddress : name = returnAddressRegister
  · rw [if_pos isAddress, if_pos isAddress, isAddress,
      if_neg (returnAddressRegister_not_mem_stack valid)]
  · rw [if_neg isAddress, if_neg isAddress]

theorem Shaped.leave_eq (shaped : machine.Shaped config) (frame : Frame)
    (older : List Frame) (frames : machine.stack.frames = frame :: older) :
    machine.leave = (.ok (), (machine.closed frame older).jump frame.returnAddress) := by
  unfold Machine.leave
  rw [shaped.popFrame_eq frame older frames]

theorem Shaped.effect_ret (shaped : machine.Shaped config) (frame : Frame)
    (older : List Frame) (frames : machine.stack.frames = frame :: older)
    (arguments : List Token) :
    (∃ operand fault, arguments.head? = some operand ∧
        machine.wordOf operand.lexeme = .error fault ∧
        ((Operation.giveBack .always).behavior arguments).effect machine =
          (.error fault, machine)) ∨
      ∃ returned,
        ((Operation.giveBack .always).behavior arguments).effect machine = (.ok (), returned) ∧
          returned.flow.redirected = true ∧
          returned.flow.next = machine.program.nextInstruction? frame.returnAddress := by
  rw [Operation.effect_giveBack_always]
  cases arguments with
  | nil =>
      right
      refine ⟨(machine.closed frame older).jump frame.returnAddress, ?_, rfl, rfl⟩
      rw [Operation.effect_comeBack_nil, shaped.leave_eq frame older frames]
  | cons operand rest =>
      cases word : machine.wordOf operand.lexeme with
      | error fault =>
          left
          exact ⟨operand, fault, rfl, word,
            Operation.effect_comeBack_error _ operand rest fault word⟩
      | ok value =>
          right
          have known := shaped.mem_names returnValueRegister
            (mem_registerNames_of_builtin config _ (by decide))
          have stored := machine.setRegister_eq_write returnValueRegister value known
          have left := (shaped.write returnValueRegister value).leave_eq frame older frames
          refine ⟨((machine.write returnValueRegister value).closed frame older).jump
            frame.returnAddress, ?_, rfl, rfl⟩
          rw [Operation.effect_comeBack_cons _ operand rest value _ word stored, left]

end Machine

namespace Interpreter

theorem shaped_of_passes (config : Config) (program : Program) (catalog : Catalog)
    (made : Interpreter) (accepted : create config program catalog = .ok made)
    (machine : Machine) (passed : made.Passes machine) : machine.Shaped config := by
  obtain ⟨_valid, _clean, rfl⟩ := create_eq_ok config program catalog made accepted
  obtain ⟨commands, events, _started, rfl⟩ := passed
  exact (Machine.start_shaped config program).after events

/-- Calls and returns bracket. At any machine that a session passes through, a call
overflows exactly at the depth limit. A call that is opened clears the saved
registers and changes nothing else but the address register; whatever happens until
the depth is back at the one after the call without having been below it, closing
then succeeds, restores the saved registers of the caller and its frames, and gives
the address of the line of the call. So a return goes on where the line of the call
would have gone on by itself. -/
theorem call_bracket (config : Config) (program : Program) (catalog : Catalog)
    (made : Interpreter) (accepted : create config program catalog = .ok made)
    (machine : Machine) (passed : made.Passes machine) :
    ((∃ limit, machine.pushFrame.1 = .error (.stackOverflow limit)) ↔
      machine.flow.current + 1 ≤ 65535 ∧
        machine.stack.depth = config.stackDepthLimit) ∧
    ∀ called, machine.pushFrame = (.ok (), called) →
      machine.flow.current + 1 ≤ 65535 ∧
      (∀ name, called.registers.get? name =
        if name ∈ config.stackRegisterNames then some 0
        else if name = "ra" then some (BitVec.ofNat 16 (machine.flow.current + 1))
        else machine.registers.get? name) ∧
      called.pins = machine.pins ∧
      called.flow = machine.flow ∧
      called.stack.depth = machine.stack.depth + 1 ∧
      called.stack.frames.tail = machine.stack.frames ∧
      ∀ events, Machine.StaysAbove (machine.stack.depth + 1) called events →
        (called.after events).stack.depth = machine.stack.depth + 1 →
        (∃ closed,
          (called.after events).popFrame = (.ok (machine.flow.current + 1), closed) ∧
          (∀ name, closed.registers.get? name =
            if name ∈ config.stackRegisterNames then machine.registers.get? name
            else if name = "ra" then some (BitVec.ofNat 16 (machine.flow.current + 1))
            else (called.after events).registers.get? name) ∧
          closed.pins = (called.after events).pins ∧
          closed.flow = (called.after events).flow ∧
          closed.stack.frames = machine.stack.frames) ∧
        ∀ arguments,
          (∃ operand fault, arguments.head? = some operand ∧
            (called.after events).wordOf operand.lexeme = .error fault) ∨
          ∃ returned,
            ((Operation.giveBack .always).behavior arguments).effect (called.after events) =
              (.ok (), returned) ∧
            (chooseNext returned (.ok ())).flow.next =
              (machine.flow.advance machine.program).next := by
  have shaped := shaped_of_passes config _ catalog made accepted machine passed
  have valid := (create_eq_ok config _ catalog made accepted).1
  refine ⟨shaped.pushFrame_overflow_iff, ?_⟩
  intro called pushed
  obtain ⟨address, room, rfl⟩ := shaped.pushFrame_eq_ok called pushed
  refine ⟨address, shaped.get?_opened valid, rfl, rfl, rfl, rfl, ?_⟩
  intro events above back
  have opened := shaped.opened room
  have reached := opened.after events
  -- The frame of the call and those below it are all that is left at this depth.
  have frames : (machine.opened.after events).stack.frames =
      machine.callFrame :: machine.stack.frames := by
    have below := opened.suffix_after events (machine.callFrame :: machine.stack.frames)
      (List.suffix_refl _) above
    exact (below.eq_of_length back.symm).symm
  constructor
  · refine ⟨(machine.opened.after events).closed machine.callFrame machine.stack.frames,
      reached.popFrame_eq _ _ frames, ?_, rfl, rfl, rfl⟩
    intro name
    rw [reached.get?_closed valid _ _ frames name]
    by_cases saved : name ∈ config.stackRegisterNames
    · rw [if_pos saved, if_pos saved]
      exact shaped.registers.lookup_zip_stackWords valid name saved
    · rw [if_neg saved, if_neg saved]
      rfl
  · intro arguments
    rcases reached.effect_ret _ _ frames arguments with
      ⟨operand, fault, first, word, _unchanged⟩ | ⟨returned, succeeds, redirected, next⟩
    · exact Or.inl ⟨operand, fault, first, word⟩
    · refine Or.inr ⟨returned, succeeds, ?_⟩
      have kept : (machine.opened.after events).program = machine.program :=
        opened.after_program events
      simp only [chooseNext, isFatal, redirected, Bool.false_or, if_true]
      change returned.flow.next = machine.program.nextInstruction? (machine.flow.current + 1)
      rw [next, kept]
      rfl

/-- A call from the second line, a nested call above it, and the return: the saved
register of the caller is back, although the callee has overwritten it. -/
theorem call_bracket_nested :
    ∃ (made : Interpreter) (machine called closed : Machine),
      create { stackRegisterCount := 1, maxStackDepth := 2 }
        (.ofSource .skip "mov $s0 7\njsr fn\n:fn\nret") .standard = .ok made ∧
      made.Passes machine ∧
      machine.pushFrame = (.ok (), called) ∧
      called.registers.get? "s0" = some 0 ∧
      (called.after [.request (.setRegister "s0" 9), .request .pushFrame,
        .request .popFrame]).registers.get? "s0" = some 9 ∧
      (called.after [.request (.setRegister "s0" 9), .request .pushFrame,
        .request .popFrame]).popFrame = (.ok 2, closed) ∧
      closed.registers.get? "s0" = some 7 := by
  obtain ⟨made, accepted, tested⟩ := exists_create_of_any
    { stackRegisterCount := 1, maxStackDepth := 2 }
    (.ofSource .skip "mov $s0 7\njsr fn\n:fn\nret") .standard
    (fun made =>
      let machine := (made.after [.step]).focus.machine
      let called := machine.pushFrame.2
      let events := [.request (.setRegister "s0" 9), .request .pushFrame, .request .popFrame]
      (made.after [.step]).phase == .executing && machine.flow.current == 1 &&
        machine.stack.depth == 0 && machine.registers.get? "s0" == some 7 &&
        machine.pushFrame.1.isOk &&
        decide (Machine.StaysAbove 1 called events) &&
        (called.after events).stack.depth == 1 &&
        (called.after events).registers.get? "s0" == some 9)
    (by decide +kernel)
  simp only [Bool.and_eq_true, beq_iff_eq, decide_eq_true_eq] at tested
  obtain ⟨⟨⟨⟨⟨⟨⟨executing, line⟩, depth⟩, held⟩, opens⟩, above⟩, back⟩, overwritten⟩ := tested
  have passed := made.passes_focus [.step] executing
  have pushed : (made.after [.step]).focus.machine.pushFrame =
      (.ok (), (made.after [.step]).focus.machine.pushFrame.2) := by
    apply Prod.ext
    · generalize (made.after [.step]).focus.machine.pushFrame.1 = result at opens
      cases result with
      | ok value => rfl
      | error fault => cases opens
    · rfl
  obtain ⟨_address, cleared, _pins, _flow, _deeper, _older, bracket⟩ :=
    (call_bracket _ _ _ made accepted _ passed).2 _ pushed
  rw [depth] at bracket
  obtain ⟨⟨closed, popped, restored, _rest⟩, _returns⟩ := bracket _ above back
  rw [line] at popped
  refine ⟨made, _, _, closed, accepted, passed, pushed, ?_, overwritten, popped, ?_⟩
  · rw [cleared]
    rfl
  · rw [restored, if_pos (by decide), held]

end Interpreter

end PinMachine
