import PinMachine.Proofs.Interpreter.Event
import PinMachine.Proofs.Machine.Pins
import PinMachine.Proofs.Machine.Registers

/-!
The shape of a machine: which registers it has, how many pins, how many calls it
can hold, and how much each call has saved. A machine is made in the shape of its
configuration, and no event changes the shape, whatever the instruction set. In
this shape, opening and closing a call can fail only for want of an address, of
room or of a call, and never halfway.
-/

namespace PinMachine

namespace Machine

/-- The machine has the shape that a configuration asks for. -/
structure Shaped (config : Config) (machine : Machine) : Prop where
  registers : machine.registers.Fits config
  pins : machine.pins.Wide config.pins
  limit : machine.stack.limit = config.stackDepthLimit
  saved : ∀ frame ∈ machine.stack.frames, frame.saved.length = config.stackRegisters

variable {config : Config} {machine : Machine}

theorem start_shaped (config : Config) (program : Program) :
    (start config program).Shaped config where
  registers := RegisterBank.ofConfig_fits config
  pins := Pins.off_wide config.pins
  limit := Nat.zero_add _
  saved := by
    intro frame member
    cases member

def write (machine : Machine) (name : String) (value : Word) : Machine :=
  { machine with registers := machine.registers.write name value }

theorem setRegister_eq_write (machine : Machine) (name : String) (value : Word)
    (known : name ∈ machine.registers.names) :
    machine.setRegister name value = (.ok (), machine.write name value) := by
  unfold setRegister
  rw [machine.registers.set_eq_write name value known]
  rfl

theorem setRegister_eq_error (machine : Machine) (name : String) (value : Word)
    (unknown : name ∉ machine.registers.names) :
    machine.setRegister name value = (.error (.unknownRegister name), machine) := by
  unfold setRegister
  rw [machine.registers.set_eq_error name value unknown]

theorem Shaped.mem_names (shaped : machine.Shaped config) (name : String)
    (known : name ∈ config.registerNames) : name ∈ machine.registers.names := by
  rw [shaped.registers.names_eq]
  exact known

theorem Shaped.write (shaped : machine.Shaped config) (name : String) (value : Word) :
    (machine.write name value).Shaped config :=
  { shaped with registers := shaped.registers.write name value }

theorem mem_registerNames_of_builtin (config : Config) (name : String)
    (builtin : name ∈ builtinRegisters) : name ∈ config.registerNames := by
  unfold Config.registerNames Config.generalRegisterNames
  exact List.mem_append_left _ (List.mem_append_left _ (List.mem_append_left _ builtin))

def callFrame (machine : Machine) : Frame :=
  ⟨machine.registers.stackWords, machine.flow.current + 1⟩

def opened (machine : Machine) : Machine :=
  { machine with
    registers := machine.registers.clearStack.write returnAddressRegister
      (BitVec.ofNat 16 (machine.flow.current + 1))
    stack := ⟨machine.callFrame :: machine.stack.frames, machine.stack.room - 1⟩ }

def closed (machine : Machine) (frame : Frame) (older : List Frame) : Machine :=
  { machine with
    registers := (machine.registers.restoreStack frame.saved).write returnAddressRegister
      (BitVec.ofNat 16 frame.returnAddress)
    stack := ⟨older, machine.stack.room + 1⟩ }

theorem pushFrame_of_address (machine : Machine)
    (tooLarge : maxWord < machine.flow.current + 1) :
    machine.pushFrame =
      (.error (.addressOutOfRange (machine.flow.current + 1)), machine) := by
  simp only [pushFrame, if_pos tooLarge]

theorem pushFrame_of_full (machine : Machine)
    (address : machine.flow.current + 1 ≤ maxWord) (full : machine.stack.room = 0) :
    machine.pushFrame = (.error (.stackOverflow machine.stack.limit), machine) := by
  simp only [pushFrame, if_neg (Nat.not_lt.mpr address), CallStack.push, full]

theorem Shaped.pushFrame_eq (shaped : machine.Shaped config)
    (address : machine.flow.current + 1 ≤ maxWord) (room : 0 < machine.stack.room) :
    machine.pushFrame = (.ok (), machine.opened) := by
  have known : returnAddressRegister ∈ machine.registers.clearStack.names := by
    rw [shaped.registers.clearStack.names_eq]
    exact mem_registerNames_of_builtin config _ (by decide)
  obtain ⟨left, counted⟩ := Nat.exists_eq_succ_of_ne_zero (Nat.ne_of_gt room)
  simp only [pushFrame, if_neg (Nat.not_lt.mpr address), CallStack.push, counted]
  rw [setRegister_eq_write _ _ _ known]
  simp only [Machine.opened, counted, callFrame, Nat.succ_sub_one]
  rfl

/-- What opening a call can come to. A refused call leaves the machine as it was. -/
inductive Opening (machine : Machine) : Except Fault Unit × Machine → Prop where
  | opened (address : machine.flow.current + 1 ≤ maxWord)
      (room : 0 < machine.stack.room) : Opening machine (.ok (), machine.opened)
  | full (address : machine.flow.current + 1 ≤ maxWord) (full : machine.stack.room = 0) :
      Opening machine (.error (.stackOverflow machine.stack.limit), machine)
  | tooFar (address : maxWord < machine.flow.current + 1) :
      Opening machine (.error (.addressOutOfRange (machine.flow.current + 1)), machine)

theorem Shaped.opening (shaped : machine.Shaped config) :
    Opening machine machine.pushFrame := by
  by_cases address : machine.flow.current + 1 ≤ maxWord
  · by_cases full : machine.stack.room = 0
    · rw [machine.pushFrame_of_full address full]
      exact .full address full
    · have room : 0 < machine.stack.room := Nat.pos_of_ne_zero full
      rw [shaped.pushFrame_eq address room]
      exact .opened address room
  · have tooFar : maxWord < machine.flow.current + 1 := Nat.lt_of_not_le address
    rw [machine.pushFrame_of_address tooFar]
    exact .tooFar tooFar

theorem popFrame_of_empty (machine : Machine) (empty : machine.stack.frames = []) :
    machine.popFrame = (.error .stackUnderflow, machine) := by
  simp only [popFrame, CallStack.pop, empty]

theorem Shaped.popFrame_eq (shaped : machine.Shaped config) (frame : Frame)
    (older : List Frame) (frames : machine.stack.frames = frame :: older) :
    machine.popFrame = (.ok frame.returnAddress, machine.closed frame older) := by
  have width : frame.saved.length = config.stackRegisters := by
    apply shaped.saved
    rw [frames]
    exact List.mem_cons_self
  have known :
      returnAddressRegister ∈ (machine.registers.restoreStack frame.saved).names := by
    rw [(shaped.registers.restoreStack frame.saved width).names_eq]
    exact mem_registerNames_of_builtin config _ (by decide)
  simp only [popFrame, CallStack.pop, frames]
  rw [setRegister_eq_write _ _ _ known]
  rfl

theorem Shaped.opened (shaped : machine.Shaped config) (room : 0 < machine.stack.room) :
    machine.opened.Shaped config where
  registers := shaped.registers.clearStack.write _ _
  pins := shaped.pins
  limit := by
    have limit := shaped.limit
    unfold CallStack.limit CallStack.depth at limit
    change (machine.callFrame :: machine.stack.frames).length + (machine.stack.room - 1) = _
    rw [List.length_cons]
    omega
  saved := by
    intro frame member
    rcases List.mem_cons.mp member with rfl | old
    · exact shaped.registers.stackWords_length
    · exact shaped.saved frame old

theorem Shaped.closed (shaped : machine.Shaped config) (frame : Frame)
    (older : List Frame) (frames : machine.stack.frames = frame :: older) :
    (machine.closed frame older).Shaped config where
  registers := by
    apply RegisterBank.Fits.write
    apply shaped.registers.restoreStack
    apply shaped.saved
    rw [frames]
    exact List.mem_cons_self
  pins := shaped.pins
  limit := by
    have limit := shaped.limit
    unfold CallStack.limit CallStack.depth at limit
    rw [frames, List.length_cons] at limit
    change older.length + (machine.stack.room + 1) = _
    omega
  saved := by
    intro kept member
    apply shaped.saved
    rw [frames]
    exact List.mem_cons_of_mem _ member

/-- What serving a request can make of a machine. -/
inductive Served (machine : Machine) : Machine → Prop where
  | unchanged : Served machine machine
  | wrote (name : String) (value : Word) : Served machine (machine.write name value)
  | drove (range : PinRange) (bits : List Bool) (pins : Pins)
      (written : machine.pins.writeRange range bits = .ok pins) :
      Served machine { machine with pins := pins }
  | jumped (address : Nat) : Served machine (machine.jump address)
  | ended : Served machine { machine with flow := machine.flow.terminate }
  | slept (steps : Nat) : Served machine (machine.sleep steps)
  | called (address : machine.flow.current + 1 ≤ maxWord)
      (room : 0 < machine.stack.room) : Served machine machine.opened
  | returned (frame : Frame) (older : List Frame)
      (frames : machine.stack.frames = frame :: older) :
      Served machine (machine.closed frame older)

/-- Nothing else can happen to a machine in shape, also when the request fails. -/
theorem Shaped.served (shaped : machine.Shaped config) (request : Request) :
    Served machine (machine.serve request).2 := by
  cases request with
  | currentLine => exact .unchanged
  | pushFrame =>
      have opening := shaped.opening
      change Served machine machine.pushFrame.2
      generalize machine.pushFrame = result at opening
      cases opening with
      | opened address room => exact .called address room
      | full address full => exact .unchanged
      | tooFar address => exact .unchanged
  | popFrame =>
      change Served machine machine.popFrame.2
      cases frames : machine.stack.frames with
      | nil =>
          rw [machine.popFrame_of_empty frames]
          exact .unchanged
      | cons frame older =>
          rw [shaped.popFrame_eq frame older frames]
          exact .returned frame older frames
  | jump address => exact .jumped address
  | jumpToLabel label =>
      change Served machine (machine.jumpToLabel label)
      unfold jumpToLabel
      cases machine.labelAddress? label with
      | none => exact .ended
      | some address => exact .jumped address
  | sleep steps => exact .slept steps
  | labelAddress label => exact .unchanged
  | register name => exact .unchanged
  | setRegister name value =>
      change Served machine (machine.setRegister name value).2
      by_cases known : name ∈ machine.registers.names
      · rw [machine.setRegister_eq_write name value known]
        exact .wrote name value
      · rw [machine.setRegister_eq_error name value known]
        exact .unchanged
  | setPins range bits =>
      change Served machine (machine.setPins range bits).2
      unfold setPins
      cases written : machine.pins.writeRange range bits with
      | error fault => exact .unchanged
      | ok pins => exact .drove range bits pins written
  | pins range => exact .unchanged

theorem Shaped.of_served (shaped : machine.Shaped config) (after : Machine)
    (served : Served machine after) : after.Shaped config := by
  cases served with
  | unchanged => exact shaped
  | wrote name value => exact shaped.write name value
  | drove range bits pins written =>
      exact { shaped with pins := shaped.pins.writeRange range bits pins written }
  | jumped address => exact { shaped with }
  | ended => exact { shaped with }
  | slept steps => exact { shaped with }
  | called address room => exact shaped.opened room
  | returned frame older frames => exact shaped.closed frame older frames

theorem Shaped.undergo (shaped : machine.Shaped config) (event : Event) :
    (machine.undergo event).Shaped config := by
  cases event with
  | request request => exact shaped.of_served _ (shaped.served request)
  | enterLine => exact { shaped with }
  | leaveLine result => exact { shaped with }
  | idle => exact { shaped with }
  | pins operation => exact { shaped with pins := shaped.pins.operate operation }

theorem Shaped.after (shaped : machine.Shaped config) (events : List Event) :
    (machine.after events).Shaped config :=
  after_preserves (Shaped config) (fun _ event holds => holds.undergo event)
    machine events shaped

end Machine

end PinMachine
