import PinMachine.Catalog.Standard
import PinMachine.Proofs.Interpreter.Phase
import PinMachine.Proofs.Machine.Shape
import PinMachine.Proofs.Program.Index
import PinMachine.Proofs.Validation.Accepted

/-!
The invariant of sessions. Whatever the instruction set, an interpreter keeps its
registers, pins and depth limit, its frames point behind instruction lines at
addresses that fit a word, and the line to execute next is an instruction line
with a dispatch entry. The invariant is proved for single requests, then for
lines, steps and sessions.
-/

namespace PinMachine

variable {config : Config} {program : Program}

namespace Machine

/-- The flow and the frames of a machine point at lines of a program. -/
structure Tracks (program : Program) (machine : Machine) : Prop where
  program_eq : machine.program = program
  current : machine.flow.current < program.lines.length
  next : ∀ index, machine.flow.next = some index → program.holdsInstruction index = true
  frames : ∀ frame ∈ machine.stack.frames,
    1 ≤ frame.returnAddress ∧ frame.returnAddress ≤ maxWord ∧
      program.holdsInstruction (frame.returnAddress - 1) = true

variable {machine : Machine}

theorem start_tracks (config : Config) (indexed : Indexed program.lines)
    (some_line : 0 < program.lines.length) : (start config program).Tracks program where
  program_eq := rfl
  current := some_line
  next := fun index => program.holdsInstruction_of_nextInstruction? indexed 0 index
  frames := by
    intro frame member
    cases member

theorem Tracks.jump (tracks : machine.Tracks program) (indexed : Indexed program.lines)
    (address : Nat) : (machine.jump address).Tracks program where
  program_eq := tracks.program_eq
  current := tracks.current
  next := by
    intro index next
    change machine.program.nextInstruction? address = some index at next
    rw [tracks.program_eq] at next
    exact program.holdsInstruction_of_nextInstruction? indexed address index next
  frames := tracks.frames

/-- A request of an instruction line keeps track, and keeps the current line. The
line has to be an instruction line, because a call notes its address. -/
theorem Tracks.of_served (tracks : machine.Tracks program) (indexed : Indexed program.lines)
    (inLine : program.holdsInstruction machine.flow.current = true) (after : Machine)
    (served : Served machine after) :
    after.Tracks program ∧ after.flow.current = machine.flow.current := by
  cases served with
  | unchanged => exact ⟨tracks, rfl⟩
  | wrote name value => exact ⟨{ tracks with }, rfl⟩
  | drove range bits pins written => exact ⟨{ tracks with }, rfl⟩
  | jumped address => exact ⟨tracks.jump indexed address, rfl⟩
  | ended =>
      refine ⟨{ tracks with next := ?_ }, rfl⟩
      intro index next
      cases next
  | slept steps => exact ⟨{ tracks with }, rfl⟩
  | called address room =>
      refine ⟨{ tracks with frames := ?_ }, rfl⟩
      intro frame member
      rcases List.mem_cons.mp member with rfl | old
      · exact ⟨Nat.le_add_left 1 _, address, inLine⟩
      · exact tracks.frames frame old
  | returned frame older frames =>
      refine ⟨{ tracks with frames := ?_ }, rfl⟩
      intro kept member
      apply tracks.frames
      rw [frames]
      exact List.mem_cons_of_mem _ member

theorem Tracks.effect {α : Type} (tracks : machine.Tracks program)
    (shaped : machine.Shaped config) (indexed : Indexed program.lines)
    (inLine : program.holdsInstruction machine.flow.current = true) (action : Action α) :
    (action.effect machine).2.Shaped config ∧ (action.effect machine).2.Tracks program ∧
      (action.effect machine).2.flow.current = machine.flow.current := by
  -- The current line has to be carried along: a later call of the same line uses it.
  apply Action.effect_preserves
    (fun reached => reached.Shaped config ∧ reached.Tracks program ∧
      reached.flow.current = machine.flow.current)
  · rintro reached request ⟨shape, track, same⟩
    have served := shape.served request
    have kept := track.of_served indexed (by rw [same]; exact inLine) _ served
    exact ⟨shape.of_served _ served, kept.1, kept.2.trans same⟩
  · exact ⟨shaped, tracks, rfl⟩

theorem Tracks.focus (tracks : machine.Tracks program) :
    ({ machine with flow := machine.flow.focus } : Machine).Tracks program where
  program_eq := tracks.program_eq
  current := by
    cases next : machine.flow.next with
    | none =>
        simp only [Flow.focus, next, Option.getD_none]
        exact tracks.current
    | some index =>
        simp only [Flow.focus, next, Option.getD_some]
        exact program.lt_length_of_holdsInstruction index (tracks.next index next)
  next := tracks.next
  frames := tracks.frames

theorem Tracks.chooseNext (tracks : machine.Tracks program) (indexed : Indexed program.lines)
    (result : Except Fault Unit) :
    (Interpreter.chooseNext machine result).Tracks program where
  program_eq := tracks.program_eq
  current := by
    unfold Interpreter.chooseNext
    split
    · exact tracks.current
    · exact tracks.current
  next := by
    intro index
    unfold Interpreter.chooseNext
    split
    · exact tracks.next index
    · intro next
      change machine.program.nextInstruction? (machine.flow.current + 1) = some index at next
      rw [tracks.program_eq] at next
      exact program.holdsInstruction_of_nextInstruction? indexed _ index next
  frames := tracks.frames

end Machine

namespace Interpreter

theorem exists_dispatch (program : Program) (config : Config) (catalog : Catalog)
    (accepted : (program.validate config catalog).isOk = true) (index : Nat)
    (holds : program.holdsInstruction index = true) :
    ∃ dispatch,
      (program.lines.map fun line => line.dispatch? catalog).toArray[index]? =
        some (some dispatch) := by
  obtain ⟨line, place, isInstruction⟩ := (program.holdsInstruction_iff index).mp holds
  obtain ⟨name, instruction⟩ := Option.isSome_iff_exists.mp isInstruction
  obtain ⟨⟨definition, resolved⟩, _checked⟩ := program.instruction_accepted config catalog
    accepted line (List.mem_of_getElem? place) name instruction
  refine ⟨⟨definition.behavior, line.arguments⟩, ?_⟩
  have same : program.lines[index]? = some line := place
  rw [List.getElem?_toArray, List.getElem?_map, same, Option.map_some]
  simp only [Line.dispatch?, instruction, resolved]

/-- What holds of an interpreter between two steps: its fixed parts are those it
was made with, and its machine is in shape and on track. -/
structure Steady (config : Config) (program : Program) (catalog : Catalog)
    (interpreter : Interpreter) : Prop where
  config_eq : interpreter.config = config
  dispatch_eq : interpreter.dispatch =
    (program.lines.map fun line => line.dispatch? catalog).toArray
  shaped : interpreter.machine.Shaped config
  tracks : interpreter.machine.Tracks program
  settled : interpreter.machine.flow.redirected = false
  pending : interpreter.pendingSteps < config.steps

variable {catalog : Catalog} {interpreter : Interpreter}

theorem steps_pos (config : Config) : 0 < config.steps := by
  unfold Config.steps
  omega

theorem Steady.of_create (made : Interpreter) (indexed : Indexed program.lines)
    (some_line : 0 < program.lines.length)
    (accepted : create config program catalog = .ok made) :
    made.Steady config program catalog := by
  obtain ⟨_valid, _clean, rfl⟩ := create_eq_ok config program catalog made accepted
  exact
    { config_eq := rfl
      dispatch_eq := rfl
      shaped := Machine.start_shaped config program
      tracks := Machine.start_tracks config indexed some_line
      settled := rfl
      pending := steps_pos config }

theorem Steady.performLine (steady : interpreter.Steady config program catalog)
    (indexed : Indexed program.lines)
    (inLine : program.holdsInstruction interpreter.machine.flow.current = true) :
    interpreter.performLine.machine.Shaped config ∧
      interpreter.performLine.machine.Tracks program := by
  rcases found : interpreter.dispatch[interpreter.machine.flow.current]? with
    _ | (_ | dispatch)
  · simp only [Interpreter.performLine, found]
    exact ⟨steady.shaped, steady.tracks⟩
  · simp only [Interpreter.performLine, found]
    exact ⟨steady.shaped, steady.tracks⟩
  · rw [interpreter.performLine_eq_perform dispatch found]
    have kept := steady.tracks.effect steady.shaped indexed inLine
      (dispatch.behavior dispatch.arguments)
    exact ⟨kept.1, kept.2.1⟩

theorem Steady.focus (steady : interpreter.Steady config program catalog) :
    interpreter.focus.Steady config program catalog :=
  { steady with
    shaped := { steady.shaped with }
    tracks := steady.tracks.focus }

theorem Steady.executeLine (steady : interpreter.Steady config program catalog)
    (indexed : Indexed program.lines)
    (inLine : program.holdsInstruction interpreter.machine.flow.current = true) :
    interpreter.executeLine.interpreter.Steady config program catalog := by
  obtain ⟨shaped, tracks⟩ := steady.performLine indexed inLine
  constructor
  · rw [executeLine_config]
    exact steady.config_eq
  · rw [executeLine_dispatch]
    exact steady.dispatch_eq
  · rw [executeLine_machine]
    exact { shaped with }
  · rw [executeLine_machine]
    exact tracks.chooseNext indexed _
  · rw [executeLine_machine]
    rfl
  · rw [executeLine_pendingSteps]
    exact steps_pos config

theorem Steady.step (steady : interpreter.Steady config program catalog)
    (indexed : Indexed program.lines) :
    interpreter.step.interpreter.Steady config program catalog := by
  unfold Interpreter.step
  cases phase : interpreter.phase with
  | faulted => exact steady
  | terminated => exact steady
  | sleeping =>
      exact { steady with shaped := { steady.shaped with }, tracks := { steady.tracks with } }
  | waiting =>
      have early := (interpreter.phase_eq_waiting_iff.mp phase).2.2.2
      rw [steady.config_eq] at early
      exact { steady.focus with pending := early }
  | executing =>
      obtain ⟨_ok, ⟨index, next⟩, _awake, _due⟩ :=
        interpreter.phase_eq_executing_iff.mp phase
      apply steady.focus.executeLine indexed
      rw [focus_current index next]
      exact steady.tracks.next index next

theorem Steady.obey_pins (steady : interpreter.Steady config program catalog)
    (operation : Pins.Operation) :
    (interpreter.obey (.pins operation)).interpreter.Steady config program catalog :=
  { steady with
    shaped := { steady.shaped with pins := steady.shaped.pins.operate operation }
    tracks := { steady.tracks with } }

theorem Steady.after (steady : interpreter.Steady config program catalog)
    (indexed : Indexed program.lines) (commands : List Command) :
    (interpreter.after commands).Steady config program catalog := by
  apply after_preserves (Steady config program catalog)
  · intro reached holds
    exact holds.step indexed
  · intro reached operation holds
    exact holds.obey_pins operation
  · exact steady

theorem steady_of_session (config : Config) (mode : CommentMode) (source : String)
    (catalog : Catalog) (made : Interpreter)
    (accepted : create config (.ofSource mode source) catalog = .ok made)
    (commands : List Command) :
    (made.after commands).Steady config (.ofSource mode source) catalog :=
  (Steady.of_create made (Program.ofSource_indexed mode source)
    (Program.ofSource_lines_pos mode source) accepted).after
      (Program.ofSource_indexed mode source) commands

/-! ### The invariant -/

/-- The invariant of an interpreter, for a configuration and a program. -/
structure Invariant (config : Config) (program : Program) (interpreter : Interpreter) :
    Prop where
  names : interpreter.machine.registers.names = config.registerNames
  inputs : interpreter.machine.pins.inputs.length = config.pins
  outputs : interpreter.machine.pins.outputs.length = config.pins
  depth : interpreter.machine.stack.depth ≤ config.stackDepthLimit
  /-- Every frame has a word for each register that calls save, and an address that
  fits a word and belongs to an instruction line. -/
  frames : ∀ frame ∈ interpreter.machine.stack.frames,
    frame.saved.length = config.stackRegisters ∧
      1 ≤ frame.returnAddress ∧ frame.returnAddress ≤ 65535 ∧
      program.holdsInstruction (frame.returnAddress - 1) = true
  current : interpreter.machine.flow.current < program.lines.length
  /-- The next line, if there is one, is an instruction line that can be executed. -/
  next : ∀ index, interpreter.machine.flow.next = some index →
    program.holdsInstruction index = true ∧
      ∃ dispatch, interpreter.dispatch[index]? = some (some dispatch)
  /-- No choice of a next line is left over from an earlier line. -/
  settled : interpreter.machine.flow.redirected = false
  /-- A line waits for fewer steps than it takes. -/
  pending : interpreter.pendingSteps < config.steps

/-- Under any catalog, the invariant holds after every session of an accepted
program. -/
theorem session_invariant (config : Config) (mode : CommentMode) (source : String)
    (catalog : Catalog) (made : Interpreter)
    (accepted : create config (.ofSource mode source) catalog = .ok made)
    (commands : List Command) :
    (made.after commands).Invariant config (.ofSource mode source) := by
  have steady := steady_of_session config mode source catalog made accepted commands
  have clean := (create_eq_ok config _ catalog made accepted).2.1
  have limit := steady.shaped.limit
  constructor
  · exact steady.shaped.registers.names_eq
  · exact steady.shaped.pins.inputs
  · exact steady.shaped.pins.outputs
  · unfold CallStack.limit at limit
    omega
  · intro frame member
    exact ⟨steady.shaped.saved frame member, steady.tracks.frames frame member⟩
  · exact steady.tracks.current
  · intro index next
    have holds := steady.tracks.next index next
    rw [steady.dispatch_eq]
    exact ⟨holds, exists_dispatch _ config catalog clean index holds⟩
  · exact steady.settled
  · exact steady.pending

/-- After a call, an input of the host and a line of the callee, a call is still
open and the invariant speaks about its frame. -/
theorem session_invariant_in_call :
    ∃ made : Interpreter,
      create { stackRegisterCount := 1, maxStackDepth := 1, pinCount := 2 }
        (.ofSource .skip "jsr fn\nadd 1\n:fn\nmov $s0 3\nret") .standard = .ok made ∧
      (made.after [.step, .pins (.setInput 1 true), .run 1]).machine.stack.depth = 1 ∧
      (made.after [.step, .pins (.setInput 1 true), .run 1]).Invariant
        { stackRegisterCount := 1, maxStackDepth := 1, pinCount := 2 }
        (.ofSource .skip "jsr fn\nadd 1\n:fn\nmov $s0 3\nret") := by
  obtain ⟨made, accepted, depth⟩ := exists_create_of_any
    { stackRegisterCount := 1, maxStackDepth := 1, pinCount := 2 }
    (.ofSource .skip "jsr fn\nadd 1\n:fn\nmov $s0 3\nret") .standard
    (fun made =>
      (made.after [.step, .pins (.setInput 1 true), .run 1]).machine.stack.depth == 1)
    (by decide +kernel)
  exact ⟨made, accepted, by simpa using depth,
    session_invariant _ _ _ _ made accepted [.step, .pins (.setInput 1 true), .run 1]⟩

end Interpreter

end PinMachine
