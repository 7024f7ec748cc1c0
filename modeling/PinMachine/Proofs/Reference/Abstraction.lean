import PinMachine.Proofs.Catalog.Safety
import PinMachine.Proofs.Reference.Numbers
import PinMachine.Proofs.Reference.Operands

/-!
Machines as states of the reference semantics: words are seen as numbers, frames as
saved numbers and addresses. Writing a register, opening and closing a call and
choosing the next line are seen as what the reference semantics says about them, and
an argument stands for the number that its operand has in the state seen.
-/

namespace PinMachine

open Reference (Operand State)

variable {config : Config} {program : Program} {machine : Machine}
  {diagnostics : List Diagnostic}

/-- The state that a machine stands for, beside the diagnostics recorded so far. -/
def Reference.State.ofMachine (machine : Machine) (diagnostics : List Diagnostic) : State :=
  { registers := fun name => (machine.registers.get? name).map BitVec.toNat
    inputs := machine.pins.inputs
    outputs := machine.pins.outputs
    calls := machine.stack.frames.map fun frame =>
      (frame.saved.map BitVec.toNat, frame.returnAddress)
    sleep := machine.flow.sleep
    next := machine.flow.next
    diagnostics := diagnostics }

def Reference.State.ofInterpreter (interpreter : Interpreter) : State :=
  .ofMachine interpreter.machine interpreter.diagnostics.entries

open Reference.State (ofMachine)

namespace Machine

theorem ofMachine_registers (name : String) (value : Word)
    (held : machine.registers.get name = .ok value) :
    (ofMachine machine diagnostics).registers name = some value.toNat := by
  change (machine.registers.get? name).map BitVec.toNat = _
  rw [(machine.registers.get_eq_ok_iff name value).mp held]
  rfl

theorem Shaped.ofMachine_write (shaped : machine.Shaped config) (name : String)
    (value : Word) (known : name ∈ config.registerNames) :
    ofMachine (machine.write name value) diagnostics =
      (ofMachine machine diagnostics).set name value.toNat := by
  have registers : (fun other => ((machine.write name value).registers.get? other).map
      BitVec.toNat) =
        fun other => if other = name then some value.toNat
          else (machine.registers.get? other).map BitVec.toNat := by
    funext other
    change ((machine.registers.write name value).get? other).map BitVec.toNat = _
    rw [machine.registers.get?_write name other value (shaped.mem_names name known)]
    by_cases same : other = name
    · rw [if_pos same, if_pos same]
      rfl
    · rw [if_neg same, if_neg same]
  unfold ofMachine Reference.State.set
  rw [registers]
  rfl

theorem toNat_address (address : Nat) (fits : address ≤ maxWord) :
    (BitVec.ofNat 16 address).toNat = address := by
  rw [BitVec.toNat_ofNat]
  exact Nat.mod_eq_of_lt (Nat.lt_succ_of_le fits)

theorem Shaped.ofMachine_opened (shaped : machine.Shaped config) (valid : config.Valid)
    (fits : machine.flow.current + 1 ≤ maxWord) :
    ofMachine machine.opened diagnostics =
      (ofMachine machine diagnostics).call config machine.flow.current := by
  have registers : (fun name => (machine.opened.registers.get? name).map BitVec.toNat) =
      fun name =>
        if name ∈ config.stackRegisterNames then some 0
        else if name = returnAddressRegister then some (machine.flow.current + 1)
        else (machine.registers.get? name).map BitVec.toNat := by
    funext name
    rw [shaped.get?_opened valid name]
    by_cases saved : name ∈ config.stackRegisterNames
    · rw [if_pos saved, if_pos saved]
      rfl
    · rw [if_neg saved, if_neg saved]
      by_cases address : name = returnAddressRegister
      · rw [if_pos address, if_pos address, Option.map_some, toNat_address _ fits]
      · rw [if_neg address, if_neg address]
  have saved : machine.registers.stackWords.map BitVec.toNat =
      config.stackRegisterNames.map fun name =>
        ((machine.registers.get? name).map BitVec.toNat).getD 0 := by
    rw [shaped.registers.stackWords_eq valid, List.map_map]
    apply List.map_congr_left
    intro name member
    rw [Function.comp_apply]
    cases machine.registers.get? name <;> rfl
  unfold ofMachine Reference.State.call
  simp only [registers]
  rw [← saved]
  rfl

private theorem lookup_zip_map (names : List String) (words : List Word) (name : String) :
    (names.zip (words.map BitVec.toNat)).lookup name =
      ((names.zip words).lookup name).map BitVec.toNat := by
  induction names generalizing words with
  | nil => rfl
  | cons first rest ih =>
      cases words with
      | nil => rfl
      | cons word others =>
          simp only [List.map_cons, List.zip_cons_cons, List.lookup_cons]
          cases name == first with
          | true => rfl
          | false => exact ih others

end Machine

open Interpreter (chooseNext)

theorem Machine.ofMachine_chooseNext (result : Except Fault Unit)
    (mild : Interpreter.isFatal result = false) (same : machine.program = program)
    (indexed : Indexed program.lines) (settled : machine.flow.redirected = false) :
    ofMachine (chooseNext machine result) diagnostics =
      (ofMachine machine diagnostics).goTo program (machine.flow.current + 1) := by
  unfold chooseNext
  rw [mild, settled]
  unfold Reference.State.goTo
  rw [Reference.firstFrom_eq program indexed, ← same]
  rfl

theorem Machine.ofMachine_chooseNext_jump (address : Nat)
    (same : machine.program = program) (indexed : Indexed program.lines) :
    ofMachine (chooseNext (machine.jump address) (.ok ())) diagnostics =
      (ofMachine machine diagnostics).goTo program address := by
  unfold Reference.State.goTo
  rw [Reference.firstFrom_eq program indexed, ← same]
  rfl

theorem Machine.Shaped.ofMachine_leave (shaped : machine.Shaped config)
    (valid : config.Valid) (same : machine.program = program)
    (indexed : Indexed program.lines) (frame : Frame) (older : List Frame)
    (frames : machine.stack.frames = frame :: older)
    (fits : frame.returnAddress ≤ maxWord) :
    (ofMachine machine diagnostics).leave config program =
      some (ofMachine (chooseNext ((machine.closed frame older).jump frame.returnAddress)
        (.ok ())) diagnostics) := by
  have registers :
      (fun name => ((machine.closed frame older).registers.get? name).map BitVec.toNat) =
        fun name =>
          if name ∈ config.stackRegisterNames then
            (config.stackRegisterNames.zip (frame.saved.map BitVec.toNat)).lookup name
          else if name = returnAddressRegister then some frame.returnAddress
          else (machine.registers.get? name).map BitVec.toNat := by
    funext name
    rw [shaped.get?_closed valid frame older frames name]
    by_cases saved : name ∈ config.stackRegisterNames
    · rw [if_pos saved, if_pos saved, lookup_zip_map]
    · rw [if_neg saved, if_neg saved]
      by_cases address : name = returnAddressRegister
      · rw [if_pos address, if_pos address, Option.map_some, toNat_address _ fits]
      · rw [if_neg address, if_neg address]
  have closedProgram : (machine.closed frame older).program = program := same
  rw [Machine.ofMachine_chooseNext_jump frame.returnAddress closedProgram indexed]
  unfold ofMachine Reference.State.leave
  simp only [frames, List.map_cons]
  rw [registers]
  rfl

namespace Machine

variable {token : Token}

theorem Shaped.register_operand (shaped : machine.Shaped config) (program : Program)
    (diagnostics : List Diagnostic) (register : token.IsRegister config) :
    ∃ name current, token.lexeme = .register name ∧
      String.ofList name ∈ config.registerNames ∧
      Operand.ofLexeme? program token.lexeme = some (.register (String.ofList name)) ∧
      machine.registers.get (String.ofList name) = .ok current ∧
      (ofMachine machine diagnostics).registers (String.ofList name) =
        some current.toNat := by
  obtain ⟨name, shape, known⟩ := register
  obtain ⟨current, held⟩ := shaped.exists_get _ known
  refine ⟨name, current, shape, known, ?_, held, ofMachine_registers _ current held⟩
  rw [shape]
  rfl

theorem Shaped.word_operand (shaped : machine.Shaped config) (program : Program)
    (diagnostics : List Diagnostic) (word : token.IsWord config) :
    ∃ operand value, Operand.ofLexeme? program token.lexeme = some operand ∧
      machine.wordOf token.lexeme = .ok value ∧
      (ofMachine machine diagnostics).value? operand = some value.toNat := by
  rcases word with register | ⟨constant, value, read⟩
  · obtain ⟨name, current, shape, _known, decoded, held, value⟩ :=
      shaped.register_operand program diagnostics register
    refine ⟨_, current, decoded, ?_, value⟩
    rw [shape, machine.wordOf_register]
    exact held
  · refine ⟨_, value, Reference.ofLexeme?_of_readConstant program token.lexeme value read,
      ?_, rfl⟩
    rw [machine.wordOf_constant token.lexeme constant, read]
    rfl

/-- Going to a target is going to the address that its operand stands for. The
target stands for that word, unless the address is beyond words. -/
theorem Shaped.target_operand (shaped : machine.Shaped config)
    (same : machine.program = program) (indexed : Indexed program.lines)
    (diagnostics : List Diagnostic) (target : token.IsTarget config program) :
    ∃ operand address, Operand.ofLexeme? program token.lexeme = some operand ∧
      (ofMachine machine diagnostics).value? operand = some address ∧
      (Action.goTo token).effect machine = (.ok (), machine.jump address) ∧
      ((∃ value, machine.wordOf token.lexeme = .ok value ∧ value.toNat = address) ∨
        ∃ fault, machine.wordOf token.lexeme = .error fault ∧ fault.isFatal = true) := by
  rcases target with (register | ⟨constant, value, read⟩) | ⟨name, line, shape, declared⟩
  · obtain ⟨name, current, shape, _known, decoded, held, stands⟩ :=
      shaped.register_operand program diagnostics register
    refine ⟨_, current.toNat, decoded, stands,
      Action.effect_goTo_register token name current shape held, Or.inl ⟨current, ?_, rfl⟩⟩
    rw [shape, machine.wordOf_register]
    exact held
  · refine ⟨_, value.toNat, Reference.ofLexeme?_of_readConstant program token.lexeme value read,
      rfl, Action.effect_goTo_constant token value constant read, Or.inl ⟨value, ?_, rfl⟩⟩
    rw [machine.wordOf_constant token.lexeme constant, read]
    rfl
  · have address : machine.labelAddress? (String.ofList name) = some (line + 1) :=
      machine.labelAddress?_eq _ line (by rw [same]; exact declared)
    refine ⟨.number (line + 1), line + 1, ?_, rfl, ?_, ?_⟩
    · simp only [shape, Operand.ofLexeme?, Reference.labelAddress?_eq program indexed,
        declared, Option.map_some]
    · rw [Action.effect_goTo_label token name shape]
      simp only [jumpToLabel, address]
    · rw [shape, machine.wordOf_label name _ address]
      by_cases fits : line + 1 ≤ maxWord
      · exact Or.inl ⟨_, if_pos fits, toNat_address _ fits⟩
      · exact Or.inr ⟨_, if_neg fits, rfl⟩

end Machine

/-- Opening a call changes no operand but the saved registers and the address
register. -/
theorem Reference.State.value?_call (state : State) (index : Nat) (operand : Operand)
    (kept : ¬ ∃ name, operand = .register name ∧
      (name ∈ config.stackRegisterNames ∨ name = "ra")) :
    (state.call config index).value? operand = state.value? operand := by
  cases operand with
  | number value => rfl
  | pins first last => rfl
  | register name =>
      have general : name ∉ config.stackRegisterNames :=
        fun saved => kept ⟨name, rfl, Or.inl saved⟩
      have apart : name ≠ "ra" := fun address => kept ⟨name, rfl, Or.inr address⟩
      simp only [value?, call, if_neg general, if_neg apart]

theorem Reference.operands?_nil : operands? program [] = some [] := rfl

theorem Reference.operands?_cons {token : Token} {rest : List Token} {operand : Operand}
    {operands : List Operand} (first : Operand.ofLexeme? program token.lexeme = some operand)
    (later : operands? program rest = some operands) :
    operands? program (token :: rest) = some (operand :: operands) := by
  unfold operands? at later ⊢
  rw [List.mapM_cons, first, later]
  rfl

end PinMachine
