import PinMachine.Proofs.Catalog.Arguments
import PinMachine.Proofs.Catalog.Behavior
import PinMachine.Proofs.Interpreter.Invariant

/-!
Execution of accepted lines. On a machine in the shape of its configuration every
argument has the value that its sort promises, so the readers of the standard
operations do not fail. When an interpreter of an accepted program executes a line,
the line is an operation with arguments that it applies to, on such a machine.
-/

namespace PinMachine

variable {config : Config} {program : Program} {machine : Machine} {token : Token}

namespace Machine

theorem Shaped.exists_get (shaped : machine.Shaped config) (name : String)
    (known : name ∈ config.registerNames) :
    ∃ value, machine.registers.get name = .ok value := by
  obtain ⟨value, held⟩ := shaped.registers.exists_get? name known
  exact ⟨value, (machine.registers.get_eq_ok_iff name value).mpr held⟩

theorem Shaped.setRegister_eq (shaped : machine.Shaped config) (name : String)
    (value : Word) (known : name ∈ config.registerNames) :
    machine.setRegister name value = (.ok (), machine.write name value) :=
  machine.setRegister_eq_write name value (shaped.mem_names name known)

theorem Shaped.exists_word (shaped : machine.Shaped config) (word : token.IsWord config) :
    ∃ value, machine.wordOf token.lexeme = .ok value := by
  rcases word with ⟨name, shape, known⟩ | ⟨constant, value, read⟩
  · rw [shape, machine.wordOf_register]
    exact shaped.exists_get _ known
  · refine ⟨value, ?_⟩
    rw [machine.wordOf_constant token.lexeme constant, read]
    rfl

theorem labelAddress?_eq (machine : Machine) (label : String) (line : Nat)
    (declared : machine.program.labelLine? label = some line) :
    machine.labelAddress? label = some (line + 1) := by
  unfold labelAddress?
  rw [declared]
  rfl

/-- A target stands for a word, unless it is a label at an address beyond words. -/
theorem Shaped.target_cases (shaped : machine.Shaped config)
    (same : machine.program = program) (target : token.IsTarget config program) :
    (∃ value, machine.wordOf token.lexeme = .ok value) ∨
      ∃ address, machine.wordOf token.lexeme = .error (.addressOutOfRange address) := by
  rcases target with word | ⟨name, line, shape, declared⟩
  · exact Or.inl (shaped.exists_word word)
  · rw [← same] at declared
    have address := machine.labelAddress?_eq _ line declared
    rw [shape, machine.wordOf_label name _ address]
    by_cases fits : line + 1 ≤ maxWord
    · exact Or.inl ⟨_, if_pos fits⟩
    · exact Or.inr ⟨_, if_neg fits⟩

theorem Shaped.exists_goTo (shaped : machine.Shaped config)
    (target : token.IsTarget config program) :
    ∃ moved, (Action.goTo token).effect machine = (.ok (), moved) := by
  rcases target with (⟨name, shape, known⟩ | ⟨constant, value, read⟩) |
    ⟨name, line, shape, declared⟩
  · obtain ⟨held, content⟩ := shaped.exists_get _ known
    exact ⟨_, Action.effect_goTo_register token name held shape content⟩
  · exact ⟨_, Action.effect_goTo_constant token value constant read⟩
  · exact ⟨_, Action.effect_goTo_label token name shape⟩

def driven (machine : Machine) (range : PinRange) (bits : List Bool) : Machine :=
  { machine with
    pins := { machine.pins with
      outputs := machine.pins.outputs.take range.first ++ bits ++
        machine.pins.outputs.drop (range.last + 1) } }

theorem Shaped.setPins_eq (shaped : machine.Shaped config) (range : PinRange)
    (bits : List Bool) (forward : range.first ≤ range.last)
    (inside : range.last < config.pins) (width : bits.length = range.count) :
    machine.setPins range bits = (.ok (), machine.driven range bits) := by
  have count : machine.pins.count = config.pins := shaped.pins.inputs
  unfold setPins
  rw [machine.pins.writeRange_eq_ok range bits forward (by omega) width]
  rfl

end Machine

theorem Operation.ofMnemonic?_mnemonic (operation : Operation) :
    ofMnemonic? operation.mnemonic = some operation := by
  cases operation with
  | arithmetic operator => cases operator <;> rfl
  | bitwise operator => cases operator <;> rfl
  | shift direction => cases direction <;> rfl
  | test comparison => cases comparison <;> rfl
  | branch comparison => cases comparison <;> rfl
  | giveBack guard => cases guard <;> rfl
  | _ => rfl

theorem Operation.mnemonic_injective : Function.Injective Operation.mnemonic := by
  intro one other same
  have found := one.ofMnemonic?_mnemonic
  rw [same, other.ofMnemonic?_mnemonic] at found
  exact (Option.some.inj found).symm

namespace Interpreter

/-- The interpreter is about to execute a line of a program: an operation with
arguments that it applies to, on a machine in shape. -/
structure Executes (config : Config) (program : Program) (interpreter : Interpreter)
    (index : Nat) (line : Line) (operation : Operation) : Prop where
  next : interpreter.machine.flow.next = some index
  place : program.lines[index]? = some line
  instruction : line.instructionName? = some operation.mnemonic
  applies : operation.Applies config program line.arguments
  performs : interpreter.focus.performLine =
    (operation.behavior line.arguments).perform interpreter.focus.machine
  requests : interpreter.focus.lineRequests =
    (operation.behavior line.arguments).requests interpreter.focus.machine
  shaped : interpreter.focus.machine.Shaped config
  tracks : interpreter.focus.machine.Tracks program
  settled : interpreter.focus.machine.flow.redirected = false

variable {interpreter : Interpreter} {index : Nat} {line : Line} {operation : Operation}

theorem Executes.kept (executes : interpreter.Executes config program index line operation)
    (indexed : Indexed program.lines) :
    interpreter.focus.performLine.machine.program = program ∧
      interpreter.focus.performLine.machine.flow.current = index := by
  have current := focus_current index executes.next
  have inLine : program.holdsInstruction interpreter.focus.machine.flow.current = true := by
    rw [current, Program.holdsInstruction_iff]
    refine ⟨line, executes.place, ?_⟩
    unfold Line.isInstruction
    rw [executes.instruction]
    rfl
  have kept := executes.tracks.effect executes.shaped indexed inLine
    (operation.behavior line.arguments)
  rw [executes.performs]
  exact ⟨kept.2.1.program_eq, kept.2.2.trans current⟩

theorem Steady.exists_executes (steady : interpreter.Steady config program .standard)
    (clean : (program.validate config .standard).isOk = true)
    (executing : interpreter.phase = .executing) :
    ∃ index line operation, interpreter.Executes config program index line operation := by
  obtain ⟨_ok, ⟨index, next⟩, _awake, _due⟩ := interpreter.phase_eq_executing_iff.mp executing
  have holds := steady.tracks.next index next
  obtain ⟨line, place, isInstruction⟩ := (program.holdsInstruction_iff index).mp holds
  obtain ⟨name, instruction⟩ := Option.isSome_iff_exists.mp isInstruction
  obtain ⟨operation, rfl, applies, dispatch⟩ :=
    program.instruction_applies config clean line (List.mem_of_getElem? place) name instruction
  have same : program.lines[index]? = some line := place
  have found : interpreter.focus.dispatch[interpreter.focus.machine.flow.current]? =
      some (some ⟨operation.behavior, line.arguments⟩) := by
    rw [focus_current index next, steady.focus.dispatch_eq, List.getElem?_toArray,
      List.getElem?_map, same, Option.map_some, dispatch]
  exact ⟨index, line, operation,
    { next := next
      place := place
      instruction := instruction
      applies := applies
      performs := performLine_eq_perform _ _ found
      requests := by simp only [lineRequests, found]
      shaped := steady.focus.shaped
      tracks := steady.focus.tracks
      settled := steady.focus.settled }⟩

/-- In the executing phase of a session of an accepted source, a line is about to
be executed. -/
theorem exists_executes (config : Config) (mode : CommentMode) (source : String)
    (made : Interpreter)
    (accepted : create config (.ofSource mode source) .standard = .ok made)
    (commands : List Command) (executing : (made.after commands).phase = .executing) :
    ∃ index line operation,
      (made.after commands).Executes config (.ofSource mode source) index line operation :=
  (steady_of_session config mode source .standard made accepted commands).exists_executes
    (create_eq_ok config _ .standard made accepted).2.1 executing

theorem wordOf_focus (interpreter : Interpreter) (operand : Token)
    (word : operand.IsWord config) :
    interpreter.focus.machine.wordOf operand.lexeme =
      interpreter.machine.wordOf operand.lexeme := by
  rcases word with ⟨name, shape, _known⟩ | ⟨constant, _value, _read⟩
  · rw [shape, Machine.wordOf_register, Machine.wordOf_register]
    rfl
  · rw [Machine.wordOf_constant _ _ constant, Machine.wordOf_constant _ _ constant]

/-- The next step executes a line of a program with this instruction and these arguments. -/
def Enters (program : Program) (interpreter : Interpreter) (name : String)
    (arguments : List Token) : Prop :=
  interpreter.phase = .executing ∧
    ∃ index line, interpreter.machine.flow.next = some index ∧
      program.lines[index]? = some line ∧ line.instructionName? = some name ∧
      line.arguments = arguments

theorem enters_of_reads {program : Program} (index : Nat) {name : String}
    {arguments : List Token} (executing : interpreter.phase = .executing)
    (next : interpreter.machine.flow.next = some index)
    (reads : (program.lines[index]?.map fun line => (line.instructionName?, line.arguments)) =
      some (some name, arguments)) : interpreter.Enters program name arguments := by
  obtain ⟨line, place, shown⟩ := Option.map_eq_some_iff.mp reads
  obtain ⟨instruction, given⟩ := Prod.mk.inj shown
  exact ⟨executing, index, line, next, place, instruction, given⟩

theorem Enters.exists_executes {mode : CommentMode} {source : String} {made : Interpreter}
    {commands : List Command} {arguments : List Token} (operation : Operation)
    (enters : (made.after commands).Enters (.ofSource mode source) operation.mnemonic arguments)
    (accepted : create config (.ofSource mode source) .standard = .ok made) :
    ∃ index line, line.arguments = arguments ∧
      (made.after commands).Executes config (.ofSource mode source) index line operation := by
  obtain ⟨executing, index, line, next, place, instruction, given⟩ := enters
  obtain ⟨_index, _line, other, executes⟩ :=
    Interpreter.exists_executes config mode source made accepted commands executing
  obtain rfl : _index = index := Option.some.inj (executes.next.symm.trans next)
  obtain rfl : _line = line := Option.some.inj (executes.place.symm.trans place)
  obtain rfl : other = operation := Operation.mnemonic_injective
    (Option.some.inj (executes.instruction.symm.trans instruction))
  exact ⟨_index, _line, given, executes⟩

theorem Executes.step_of_effect {after : Machine}
    (executes : interpreter.Executes config program index line operation)
    (executing : interpreter.phase = .executing)
    (effect : (operation.behavior line.arguments).effect interpreter.focus.machine =
      (.ok (), after)) :
    interpreter.step.result = .ok () ∧
      interpreter.step.interpreter =
        { interpreter with machine := chooseNext after (.ok ()), pendingSteps := 0 } := by
  have result : interpreter.focus.performLine.result = .ok () := by
    rw [executes.performs]
    exact congrArg Prod.fst effect
  have machine : interpreter.focus.performLine.machine = after := by
    rw [executes.performs]
    exact congrArg Prod.snd effect
  rw [step_of_executing executing]
  constructor
  · simp only [executeLine, result]
  · simp only [executeLine, result, machine]
    rfl

end Interpreter

end PinMachine
