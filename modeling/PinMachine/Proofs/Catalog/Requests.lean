import PinMachine.Proofs.Catalog.Arguments
import PinMachine.Proofs.Machine.Shape

/-!
What the standard operations ask of a machine. An operation with arguments that it applies
to asks about registers and pins of the configuration only, whatever the answers are; among
all operations, only the load of pins looks at pins and only the call opens a frame.
-/

namespace PinMachine

variable {config : Config} {program : Program} {operation : Operation}
  {arguments : List Token}

/-- The range runs forward and ends at a pin of the configuration. -/
def PinRange.FitsIn (range : PinRange) (config : Config) : Prop :=
  range.first ≤ range.last ∧ range.last < config.pins

/-- What an operation may ask of a machine of a configuration. -/
def Operation.Asks (operation : Operation) (config : Config) : Request → Prop
  | .register name => name ∈ config.registerNames
  | .setRegister name _ => name ∈ config.registerNames
  | .setPins range bits => range.FitsIn config ∧ bits.length = range.count
  | .pins range => operation = .loadPins ∧ range.FitsIn config
  | .pushFrame => operation = .call
  | .currentLine | .popFrame | .jump _ | .jumpToLabel _ | .sleep _ | .labelAddress _ => True

namespace Action

theorem argument_eq_done (instruction : String) (arguments : List Token) (index : Nat)
    (token : Token) (found : arguments[index]? = some token) :
    argument instruction arguments index = .done token := by
  unfold argument
  rw [found]

theorem registerArgument_eq_done (instruction : String) (arguments : List Token) (index : Nat)
    (token : Token) (found : arguments[index]? = some token) (name : List Char)
    (shape : token.lexeme = .register name) :
    registerArgument instruction arguments index = .done (String.ofList name) := by
  obtain ⟨lexeme, line, column⟩ := token
  subst shape
  unfold registerArgument
  rw [argument_eq_done _ _ _ _ found]
  rfl

theorem pinArgument_eq_done (instruction : String) (arguments : List Token) (index : Nat)
    (token : Token) (found : arguments[index]? = some token)
    (isPin : token.kind.isPin = true) (range : PinRange)
    (read : token.lexeme.readPinRange = .ok range) :
    pinArgument instruction arguments index = .done range := by
  unfold pinArgument
  rw [argument_eq_done _ _ _ token found]
  change (if token.kind.isPin then _ else _) = _
  rw [if_pos isPin, read]
  rfl

theorem asks_register (name : String) (known : name ∈ config.registerNames) :
    (register name).AllRequests (operation.Asks config) :=
  (allRequests_ask known).bind fun _ => allRequests_ofExcept _ _

theorem asks_setRegister (name : String) (value : Word) (known : name ∈ config.registerNames) :
    (setRegister name value).AllRequests (operation.Asks config) :=
  (allRequests_ask known).bind fun _ => allRequests_ofExcept _ _

theorem asks_setPins (range : PinRange) (bits : List Bool) (fits : range.FitsIn config)
    (width : bits.length = range.count) :
    (setPins range bits).AllRequests (operation.Asks config) :=
  (allRequests_ask ⟨fits, width⟩).bind fun _ => allRequests_ofExcept _ _

theorem asks_pins (range : PinRange) (fits : range.FitsIn config) :
    (pins range).AllRequests (Operation.loadPins.Asks config) :=
  (allRequests_ask ⟨rfl, fits⟩).bind fun _ => allRequests_ofExcept _ _

theorem asks_word (token : Token) (word : token.IsWord config) :
    (wordOf token.lexeme).AllRequests (operation.Asks config) := by
  rcases word with ⟨name, shape, known⟩ | ⟨constant, value, read⟩
  · rw [shape]
    exact asks_register _ known
  · unfold Token.kind at constant
    cases shape : token.lexeme with
    | binary digits => exact allRequests_ofExcept _ _
    | hex digits => exact allRequests_ofExcept _ _
    | integer digits => exact allRequests_ofExcept _ _
    | _ =>
        rw [shape] at constant
        cases constant

theorem asks_target (token : Token) (target : token.IsTarget config program) :
    (wordOf token.lexeme).AllRequests (operation.Asks config) := by
  rcases target with word | ⟨name, line, shape, declared⟩
  · exact asks_word token word
  · rw [shape]
    apply (allRequests_ask trivial).bind
    intro address?
    cases address? with
    | none => trivial
    | some address =>
        by_cases fits : address ≤ maxWord
        · simp only [fits, if_true]
          trivial
        · simp only [fits, if_false]
          trivial

theorem asks_wordArgument (instruction : String) (arguments : List Token) (index : Nat)
    (token : Token) (found : arguments[index]? = some token) (word : token.IsWord config) :
    (wordArgument instruction arguments index).AllRequests (operation.Asks config) := by
  unfold wordArgument
  rw [argument_eq_done _ _ _ token found]
  exact asks_word token word

theorem asks_targetArgument (instruction : String) (arguments : List Token) (index : Nat)
    (token : Token) (found : arguments[index]? = some token)
    (target : token.IsTarget config program) :
    (wordArgument instruction arguments index).AllRequests (operation.Asks config) := by
  unfold wordArgument
  rw [argument_eq_done _ _ _ token found]
  exact asks_target token target

theorem asks_goTo (token : Token) (target : token.IsTarget config program) :
    (goTo token).AllRequests (operation.Asks config) := by
  have word : (wordOf token.lexeme).AllRequests (operation.Asks config) :=
    asks_target token target
  unfold goTo
  cases shape : token.lexeme with
  | labelArgument name => exact allRequests_ask trivial
  | _ =>
      rw [shape] at word
      exact word.bind fun _ => allRequests_ask trivial

theorem asks_comeBack (instruction : String) (arguments : List Token)
    (words : ∀ operand ∈ arguments, operand.IsWord config) :
    (comeBack instruction arguments).AllRequests (operation.Asks config) := by
  have leave : (popFrame >>= fun address => jump address).AllRequests
      (operation.Asks config) := by
    have popped : popFrame.AllRequests (operation.Asks config) :=
      (allRequests_ask trivial).bind fun _ => allRequests_ofExcept _ _
    exact popped.bind fun _ => allRequests_ask trivial
  cases arguments with
  | nil => exact leave
  | cons operand rest =>
      apply (asks_wordArgument _ _ _ operand rfl (words operand List.mem_cons_self)).bind
      intro value
      exact (asks_setRegister _ _ (Machine.mem_registerNames_of_builtin config _ (by decide))).bind
        fun _ => leave

theorem asks_giveBack (guard : ReturnGuard) (arguments : List Token)
    (words : ∀ operand ∈ arguments, operand.IsWord config) :
    ((Operation.giveBack guard).behavior arguments).AllRequests (operation.Asks config) := by
  have known := Machine.mem_registerNames_of_builtin config testRegister (by decide)
  have guarded : ∀ (admits : Word → Bool) (instruction : String),
      (register testRegister >>= fun test =>
        if admits test then comeBack instruction arguments else pure ()).AllRequests
          (operation.Asks config) := by
    intro admits instruction
    apply (asks_register _ known).bind
    intro test
    cases admits test with
    | false => trivial
    | true => exact asks_comeBack _ arguments words
  cases guard with
  | always => exact asks_comeBack _ arguments words
  | whenTrue => exact guarded ReturnGuard.whenTrue.admits _
  | whenFalse => exact guarded ReturnGuard.whenFalse.admits _

theorem asks_arithmetic (operator : Arithmetic) (first second : Token)
    (firstWord : first.IsWord config) (secondWord : second.IsWord config) :
    ((Operation.arithmetic operator).behavior [first, second]).AllRequests
      (operation.Asks config) := by
  have operand : ∀ index, index = 0 ∨ index = 1 →
      (wordArgument (Operation.arithmetic operator).mnemonic [first, second] index).AllRequests
        (operation.Asks config) := by
    rintro index (rfl | rfl)
    · exact asks_wordArgument _ _ _ first rfl firstWord
    · exact asks_wordArgument _ _ _ second rfl secondWord
  apply (operand _ (by cases operator <;> simp [Arithmetic.operandOrder])).bind
  intro left
  apply (operand _ (by cases operator <;> simp [Arithmetic.operandOrder])).bind
  intro right
  exact AllRequests.bind (allRequests_ofExcept _ _) fun _ =>
    asks_setRegister _ _ (Machine.mem_registerNames_of_builtin config _ (by decide))

theorem asks_branch (comparison : Comparison) (target first second : Token)
    (place : target.IsTarget config program) (firstWord : first.IsWord config)
    (secondWord : second.IsWord config) :
    ((Operation.branch comparison).behavior [target, first, second]).AllRequests
      (operation.Asks config) := by
  simp only [Operation.behavior]
  rw [argument_eq_done _ _ _ target rfl]
  apply (asks_wordArgument _ _ _ first rfl firstWord).bind
  intro left
  apply (asks_wordArgument _ _ _ second rfl secondWord).bind
  intro right
  cases comparison.holds left right with
  | false => trivial
  | true => exact asks_goTo target place

theorem asks_loadPins (target source : Token) (register : target.IsRegister config)
    (pins : source.IsPins config) :
    (Operation.loadPins.behavior [target, source]).AllRequests
      (Operation.loadPins.Asks config) := by
  obtain ⟨name, shape, known⟩ := register
  obtain ⟨range, isPin, read, fits⟩ := pins
  simp only [Operation.behavior]
  rw [registerArgument_eq_done _ _ _ target rfl name shape,
    pinArgument_eq_done _ _ _ source rfl isPin range read]
  apply (asks_pins range fits).bind
  intro bits
  apply (asks_register _ known).bind
  intro current
  exact asks_setRegister _ _ known

theorem asks_call (target : Token) (place : target.IsTarget config program) :
    (Operation.call.behavior [target]).AllRequests (Operation.call.Asks config) := by
  have allowed : Operation.call.Asks config .pushFrame := rfl
  have pushed : pushFrame.AllRequests (Operation.call.Asks config) :=
    (allRequests_ask allowed).bind fun _ => allRequests_ofExcept _ _
  exact pushed.bind fun _ => asks_goTo target place

end Action

open PinMachine.Action in
/-- An operation that applies to its arguments asks for what there is. -/
theorem Operation.Applies.asks (applies : operation.Applies config program arguments) :
    (operation.behavior arguments).AllRequests (operation.Asks config) := by
  have builtin := Machine.mem_registerNames_of_builtin config
  cases applies with
  | arithmeticOne operator operand word =>
      apply (asks_register accumulator (builtin _ (by decide))).bind
      intro left
      apply (asks_wordArgument _ _ _ operand rfl word).bind
      intro right
      exact AllRequests.bind (allRequests_ofExcept _ _) fun _ =>
        asks_setRegister _ _ (builtin _ (by decide))
  | arithmeticTwo operator first second firstWord secondWord =>
      exact asks_arithmetic operator first second firstWord secondWord
  | move target source register value =>
      obtain ⟨name, shape, known⟩ := register
      simp only [behavior]
      rw [registerArgument_eq_done _ _ _ target rfl name shape]
      apply (asks_targetArgument _ _ _ source rfl value).bind
      intro word
      exact asks_setRegister _ _ known
  | bitwise operator target source register word =>
      obtain ⟨name, shape, known⟩ := register
      simp only [behavior]
      rw [registerArgument_eq_done _ _ _ target rfl name shape]
      apply (asks_register _ known).bind
      intro current
      apply (asks_wordArgument _ _ _ source rfl word).bind
      intro value
      exact asks_setRegister _ _ known
  | complement target register =>
      obtain ⟨name, shape, known⟩ := register
      simp only [behavior]
      rw [registerArgument_eq_done _ _ _ target rfl name shape]
      apply (asks_register _ known).bind
      intro current
      exact asks_setRegister _ _ known
  | shift direction target source count register word amount =>
      obtain ⟨name, shape, known⟩ := register
      simp only [behavior]
      rw [registerArgument_eq_done _ _ _ target rfl name shape]
      apply (asks_wordArgument _ _ _ source rfl word).bind
      intro value
      apply (asks_wordArgument _ _ _ count rfl amount).bind
      intro places
      exact asks_setRegister _ _ known
  | test comparison first second firstWord secondWord =>
      apply (asks_wordArgument _ _ _ first rfl firstWord).bind
      intro left
      apply (asks_wordArgument _ _ _ second rfl secondWord).bind
      intro right
      exact asks_setRegister _ _ (builtin _ (by decide))
  | jump target place => exact asks_goTo target place
  | branch comparison target first second place firstWord secondWord =>
      exact asks_branch comparison target first second place firstWord secondWord
  | call target place => exact asks_call target place
  | giveBack guard =>
      apply asks_giveBack guard
      intro operand member
      cases member
  | giveBackWord guard operand word =>
      apply asks_giveBack guard
      intro other member
      rw [List.mem_singleton.mp member]
      exact word
  | sleep operand word =>
      exact (asks_wordArgument _ _ _ operand rfl word).bind fun _ => allRequests_ask trivial
  | storePins target source pins word =>
      obtain ⟨range, isPin, read, fits⟩ := pins
      simp only [behavior]
      rw [pinArgument_eq_done _ _ _ target rfl isPin range read]
      apply (asks_wordArgument _ _ _ source rfl word).bind
      intro value
      exact asks_setPins range _ fits (by simp [wordBits])
  | loadPins target source register pins => exact asks_loadPins target source register pins
  | clearPins target pins =>
      obtain ⟨range, isPin, read, fits⟩ := pins
      simp only [behavior]
      rw [pinArgument_eq_done _ _ _ target rfl isPin range read]
      exact asks_setPins range _ fits List.length_replicate

end PinMachine
