import PinMachine.Catalog.Operation
import PinMachine.Proofs.Action.Effect

/-!
Effects of the standard operations. For each operation, the effect of its behavior
is given once its arguments are known: which words they stand for, which register
or pins they name. Reading arguments never changes the machine, so all words are
those of the machine before the operation.
-/

namespace PinMachine

variable {machine : Machine}

/-- The word that a lexeme stands for on a machine, or the fault of asking. -/
def Machine.wordOf (machine : Machine) (lexeme : Lexeme) : Except Fault Word :=
  ((Action.wordOf lexeme).effect machine).1

namespace Action

@[simp]
theorem effect_wordOf (lexeme : Lexeme) (machine : Machine) :
    (wordOf lexeme).effect machine = (machine.wordOf lexeme, machine) := by
  unfold Machine.wordOf
  apply Prod.ext
  · rfl
  · cases lexeme with
    | register name => simp only [wordOf, effect_register]
    | binary digits => simp only [wordOf, effect_ofExcept]
    | hex digits => simp only [wordOf, effect_ofExcept]
    | integer digits => simp only [wordOf, effect_ofExcept]
    | labelArgument name =>
        simp only [wordOf, effect_bind, effect_labelAddress]
        cases machine.labelAddress? (String.ofList name) with
        | none => rfl
        | some address =>
            by_cases fits : address ≤ maxWord
            · simp only [fits, if_true, effect_pure]
            · simp only [fits, if_false, effect_raise]
    | _ => rfl

end Action

theorem Machine.wordOf_register (machine : Machine) (name : List Char) :
    machine.wordOf (.register name) = machine.registers.get (String.ofList name) := by
  simp only [Machine.wordOf, Action.wordOf, Action.effect_register]

theorem Machine.wordOf_constant (machine : Machine) (lexeme : Lexeme)
    (constant : lexeme.kind.isConstant = true) :
    machine.wordOf lexeme = lexeme.readConstant.mapError .value := by
  cases lexeme with
  | binary digits => simp only [Machine.wordOf, Action.wordOf, Action.effect_ofExcept]
  | hex digits => simp only [Machine.wordOf, Action.wordOf, Action.effect_ofExcept]
  | integer digits => simp only [Machine.wordOf, Action.wordOf, Action.effect_ofExcept]
  | _ => cases constant

theorem Machine.wordOf_label (machine : Machine) (name : List Char) (address : Nat)
    (declared : machine.labelAddress? (String.ofList name) = some address) :
    machine.wordOf (.labelArgument name) =
      if address ≤ maxWord then .ok (BitVec.ofNat 16 address)
      else .error (.addressOutOfRange address) := by
  simp only [Machine.wordOf, Action.wordOf, Action.effect_bind, Action.effect_labelAddress,
    declared]
  by_cases fits : address ≤ maxWord
  · simp only [fits, if_true, Action.effect_pure]
  · simp only [fits, if_false, Action.effect_raise]

namespace Action

theorem effect_argument (instruction : String) (arguments : List Token) (index : Nat)
    (token : Token) (found : arguments[index]? = some token) :
    (argument instruction arguments index).effect machine = (.ok token, machine) := by
  unfold argument
  rw [found]
  rfl

theorem effect_wordArgument (instruction : String) (arguments : List Token) (index : Nat)
    (token : Token) (found : arguments[index]? = some token) :
    (wordArgument instruction arguments index).effect machine =
      (machine.wordOf token.lexeme, machine) := by
  unfold wordArgument
  rw [effect_bind_ok _ _ token machine machine (effect_argument _ _ _ _ found)]
  exact effect_wordOf token.lexeme machine

theorem effect_registerArgument (instruction : String) (arguments : List Token)
    (index : Nat) (token : Token) (found : arguments[index]? = some token)
    (name : List Char) (named : token.lexeme = .register name) :
    (registerArgument instruction arguments index).effect machine =
      (.ok (String.ofList name), machine) := by
  unfold registerArgument
  rw [effect_bind_ok _ _ token machine machine (effect_argument _ _ _ _ found)]
  simp only [named, effect_pure]

theorem effect_pinArgument (instruction : String) (arguments : List Token) (index : Nat)
    (token : Token) (found : arguments[index]? = some token)
    (isPin : token.kind.isPin = true) (range : PinRange)
    (read : token.lexeme.readPinRange = .ok range) :
    (pinArgument instruction arguments index).effect machine = (.ok range, machine) := by
  unfold pinArgument
  rw [effect_bind_ok _ _ token machine machine (effect_argument _ _ _ _ found)]
  simp only [isPin, if_true, read, effect_ofExcept]
  rfl

theorem effect_goTo_label (target : Token) (name : List Char)
    (label : target.lexeme = .labelArgument name) :
    (goTo target).effect machine = (.ok (), machine.jumpToLabel (String.ofList name)) := by
  unfold goTo
  simp only [label, effect_jumpToLabel]

theorem effect_goTo_word (target : Token) (notLabel : target.kind ≠ .labelArgument)
    (address : Word) (word : machine.wordOf target.lexeme = .ok address) :
    (goTo target).effect machine = (.ok (), machine.jump address.toNat) := by
  have reached : (wordOf target.lexeme >>= fun address => jump address.toNat).effect machine =
      (.ok (), machine.jump address.toNat) := by
    rw [effect_bind, effect_wordOf, word]
    exact effect_jump _ _
  unfold goTo
  unfold Token.kind at notLabel
  cases shape : target.lexeme with
  | labelArgument name =>
      rw [shape] at notLabel
      exact False.elim (notLabel rfl)
  | _ =>
      rw [shape] at reached
      exact reached

theorem effect_goTo_register (target : Token) (name : List Char) (held : Word)
    (named : target.lexeme = .register name)
    (content : machine.registers.get (String.ofList name) = .ok held) :
    (goTo target).effect machine = (.ok (), machine.jump held.toNat) := by
  apply effect_goTo_word
  · intro isLabel
    unfold Token.kind at isLabel
    rw [named] at isLabel
    cases isLabel
  · rw [named, machine.wordOf_register]
    exact content

theorem effect_goTo_constant (target : Token) (value : Word)
    (constant : target.lexeme.kind.isConstant = true)
    (read : target.lexeme.readConstant = .ok value) :
    (goTo target).effect machine = (.ok (), machine.jump value.toNat) := by
  apply effect_goTo_word
  · intro isLabel
    unfold Token.kind at isLabel
    rw [isLabel] at constant
    cases constant
  · rw [machine.wordOf_constant target.lexeme constant, read]
    rfl

end Action

/-! ### Operations -/

/-- Puts a computed word in the accumulator; a fault of computing it changes
nothing. -/
def Machine.accumulate (machine : Machine) (result : Except Fault Word) :
    Except Fault Unit × Machine :=
  match result with
  | .ok word => machine.setRegister accumulator word
  | .error fault => (.error fault, machine)

/-- Closes the latest call and goes on after its address. -/
def Machine.leave (machine : Machine) : Except Fault Unit × Machine :=
  match machine.popFrame with
  | (.ok address, closed) => (.ok (), closed.jump address)
  | (.error fault, failed) => (.error fault, failed)

namespace Operation

open PinMachine.Action

private theorem effect_accumulate (result : Except Fault Word) (machine : Machine) :
    (ofExcept result >>= fun word => setRegister accumulator word).effect machine =
      machine.accumulate result := by
  rw [effect_bind, effect_ofExcept]
  cases result with
  | ok word => exact effect_setRegister accumulator word machine
  | error fault => rfl

theorem effect_arithmetic_one (operator : Arithmetic) (operand : Token) (left right : Word)
    (accumulated : machine.registers.get accumulator = .ok left)
    (word : machine.wordOf operand.lexeme = .ok right) :
    ((Operation.arithmetic operator).behavior [operand]).effect machine =
      machine.accumulate (operator.apply left right) := by
  simp only [behavior, List.length_singleton, show ¬ 2 ≤ 1 by decide, if_false]
  rw [effect_bind, effect_register, accumulated]
  simp only
  rw [effect_bind, effect_wordArgument _ _ _ operand rfl, word]
  exact effect_accumulate _ _

/-- Of two operands the first is on the left, except that it is subtracted from
the second. -/
theorem effect_arithmetic_two (operator : Arithmetic) (first second : Token)
    (left right : Word) (leftWord : machine.wordOf first.lexeme = .ok left)
    (rightWord : machine.wordOf second.lexeme = .ok right) :
    ((Operation.arithmetic operator).behavior [first, second]).effect machine =
      machine.accumulate
        (if operator = .sub then operator.apply right left
          else operator.apply left right) := by
  simp only [behavior, List.length_cons, List.length_nil, show 2 ≤ 0 + 1 + 1 by decide,
    if_true]
  cases operator <;>
  · simp only [Arithmetic.operandOrder, reduceCtorEq, if_false, if_true]
    rw [effect_bind, effect_wordArgument _ _ _ _ rfl]
    simp only [leftWord, rightWord]
    rw [effect_bind, effect_wordArgument _ _ _ _ rfl]
    simp only [leftWord, rightWord]
    exact effect_accumulate _ _

theorem effect_move (target source : Token) (name : List Char) (value : Word)
    (named : target.lexeme = .register name)
    (word : machine.wordOf source.lexeme = .ok value) :
    (Operation.move.behavior [target, source]).effect machine =
      machine.setRegister (String.ofList name) value := by
  simp only [behavior]
  rw [effect_bind, effect_registerArgument _ _ _ target rfl name named]
  simp only
  rw [effect_bind, effect_wordArgument _ _ _ source rfl, word]
  exact effect_setRegister _ _ _

theorem effect_move_error (target source : Token) (name : List Char) (fault : Fault)
    (named : target.lexeme = .register name)
    (word : machine.wordOf source.lexeme = .error fault) :
    (Operation.move.behavior [target, source]).effect machine = (.error fault, machine) := by
  simp only [behavior]
  rw [effect_bind, effect_registerArgument _ _ _ target rfl name named]
  simp only
  rw [effect_bind, effect_wordArgument _ _ _ source rfl, word]

theorem effect_bitwise (operator : Bitwise) (target source : Token) (name : List Char)
    (current value : Word) (named : target.lexeme = .register name)
    (held : machine.registers.get (String.ofList name) = .ok current)
    (word : machine.wordOf source.lexeme = .ok value) :
    ((Operation.bitwise operator).behavior [target, source]).effect machine =
      machine.setRegister (String.ofList name) (operator.apply current value) := by
  simp only [behavior]
  rw [effect_bind, effect_registerArgument _ _ _ target rfl name named]
  simp only
  rw [effect_bind, effect_register, held]
  simp only
  rw [effect_bind, effect_wordArgument _ _ _ source rfl, word]
  exact effect_setRegister _ _ _

theorem effect_complement (target : Token) (name : List Char) (current : Word)
    (named : target.lexeme = .register name)
    (held : machine.registers.get (String.ofList name) = .ok current) :
    (Operation.complement.behavior [target]).effect machine =
      machine.setRegister (String.ofList name) (~~~current) := by
  simp only [behavior]
  rw [effect_bind, effect_registerArgument _ _ _ target rfl name named]
  simp only
  rw [effect_bind, effect_register, held]
  exact effect_setRegister _ _ _

theorem effect_shift (direction : ShiftDirection) (target source count : Token)
    (name : List Char) (value amount : Word) (named : target.lexeme = .register name)
    (word : machine.wordOf source.lexeme = .ok value)
    (counted : machine.wordOf count.lexeme = .ok amount) :
    ((Operation.shift direction).behavior [target, source, count]).effect machine =
      machine.setRegister (String.ofList name) (direction.apply value amount) := by
  simp only [behavior]
  rw [effect_bind, effect_registerArgument _ _ _ target rfl name named]
  simp only
  rw [effect_bind, effect_wordArgument _ _ _ source rfl, word]
  simp only
  rw [effect_bind, effect_wordArgument _ _ _ count rfl, counted]
  exact effect_setRegister _ _ _

theorem effect_test (comparison : Comparison) (first second : Token) (left right : Word)
    (leftWord : machine.wordOf first.lexeme = .ok left)
    (rightWord : machine.wordOf second.lexeme = .ok right) :
    ((Operation.test comparison).behavior [first, second]).effect machine =
      machine.setRegister testRegister (if comparison.holds left right then 1 else 0) := by
  simp only [behavior]
  rw [effect_bind, effect_wordArgument _ _ _ first rfl, leftWord]
  simp only
  rw [effect_bind, effect_wordArgument _ _ _ second rfl, rightWord]
  exact effect_setRegister _ _ _

theorem effect_jump_operation (target : Token) :
    (Operation.jump.behavior [target]).effect machine = (goTo target).effect machine := by
  simp only [behavior]
  exact effect_bind_ok _ _ target machine machine (effect_argument _ _ _ target rfl)

theorem effect_branch (comparison : Comparison) (target first second : Token)
    (left right : Word) (leftWord : machine.wordOf first.lexeme = .ok left)
    (rightWord : machine.wordOf second.lexeme = .ok right) :
    ((Operation.branch comparison).behavior [target, first, second]).effect machine =
      if comparison.holds left right then (goTo target).effect machine
      else (.ok (), machine) := by
  simp only [behavior]
  rw [effect_bind, effect_argument _ _ _ target rfl]
  simp only
  rw [effect_bind, effect_wordArgument _ _ _ first rfl, leftWord]
  simp only
  rw [effect_bind, effect_wordArgument _ _ _ second rfl, rightWord]
  by_cases holds : comparison.holds left right
  · simp only [holds, if_true]
  · simp only [holds, if_false, Bool.false_eq_true]
    rfl

/-- A call opens its frame before it looks at its target. -/
theorem effect_call_operation (target : Token) (opened : Machine)
    (pushed : machine.pushFrame = (.ok (), opened)) :
    (Operation.call.behavior [target]).effect machine = (goTo target).effect opened := by
  simp only [behavior]
  rw [effect_bind, effect_argument _ _ _ target rfl]
  simp only
  rw [effect_bind, effect_pushFrame, pushed]

theorem effect_call_error (target : Token) (fault : Fault) (failed : Machine)
    (refused : machine.pushFrame = (.error fault, failed)) :
    (Operation.call.behavior [target]).effect machine = (.error fault, failed) := by
  simp only [behavior]
  rw [effect_bind, effect_argument _ _ _ target rfl]
  simp only
  rw [effect_bind, effect_pushFrame, refused]

private theorem effect_leave (machine : Machine) :
    (popFrame >>= fun address => Action.jump address).effect machine = machine.leave := by
  unfold Machine.leave
  rw [effect_bind, effect_popFrame]
  cases machine.popFrame with
  | mk result popped =>
      cases result with
      | ok address => exact Action.effect_jump address popped
      | error fault => rfl

theorem effect_comeBack_nil (instruction : String) (machine : Machine) :
    (comeBack instruction []).effect machine = machine.leave :=
  effect_leave machine

private theorem comeBack_cons (instruction : String) (operand : Token) (rest : List Token) :
    comeBack instruction (operand :: rest) =
      (wordArgument instruction (operand :: rest) 0 >>= fun value =>
        setRegister returnValueRegister value >>= fun _ =>
          popFrame >>= fun address => Action.jump address) := rfl

/-- A word to give back is put in its register before the call is closed. -/
theorem effect_comeBack_cons (instruction : String) (operand : Token) (rest : List Token)
    (value : Word) (stored : Machine) (word : machine.wordOf operand.lexeme = .ok value)
    (set : machine.setRegister returnValueRegister value = (.ok (), stored)) :
    (comeBack instruction (operand :: rest)).effect machine = stored.leave := by
  rw [comeBack_cons, effect_bind, effect_wordArgument _ _ _ operand rfl, word]
  simp only
  rw [effect_bind, effect_setRegister, set]
  exact effect_leave stored

theorem effect_comeBack_error (instruction : String) (operand : Token) (rest : List Token)
    (fault : Fault) (word : machine.wordOf operand.lexeme = .error fault) :
    (comeBack instruction (operand :: rest)).effect machine = (.error fault, machine) := by
  rw [comeBack_cons, effect_bind, effect_wordArgument _ _ _ operand rfl, word]

theorem effect_giveBack_always (arguments : List Token) :
    ((Operation.giveBack .always).behavior arguments).effect machine =
      (comeBack "ret" arguments).effect machine := rfl

theorem effect_giveBack (guard : ReturnGuard) (arguments : List Token) (test : Word)
    (held : machine.registers.get testRegister = .ok test) :
    ((Operation.giveBack guard).behavior arguments).effect machine =
      if guard.admits test then
        (comeBack (Operation.giveBack guard).mnemonic arguments).effect machine
      else (.ok (), machine) := by
  cases guard with
  | always => exact effect_giveBack_always arguments
  | whenTrue =>
      simp only [behavior]
      rw [effect_bind, effect_register, held]
      by_cases admitted : ReturnGuard.whenTrue.admits test
      · simp only [admitted, if_true]
      · simp only [admitted, if_false, Bool.false_eq_true]
        rfl
  | whenFalse =>
      simp only [behavior]
      rw [effect_bind, effect_register, held]
      by_cases admitted : ReturnGuard.whenFalse.admits test
      · simp only [admitted, if_true]
      · simp only [admitted, if_false, Bool.false_eq_true]
        rfl

theorem effect_sleep_operation (operand : Token) (steps : Word)
    (word : machine.wordOf operand.lexeme = .ok steps) :
    (Operation.sleep.behavior [operand]).effect machine =
      (.ok (), machine.sleep steps.toNat) := by
  simp only [behavior]
  rw [effect_bind, effect_wordArgument _ _ _ operand rfl, word]
  exact Action.effect_sleep _ _

theorem effect_storePins (pinToken operand : Token) (isPin : pinToken.kind.isPin = true)
    (range : PinRange) (read : pinToken.lexeme.readPinRange = .ok range) (value : Word)
    (word : machine.wordOf operand.lexeme = .ok value) :
    (Operation.storePins.behavior [pinToken, operand]).effect machine =
      machine.setPins range (wordBits value range.count) := by
  simp only [behavior]
  rw [effect_bind, effect_pinArgument _ _ _ pinToken rfl isPin range read]
  simp only
  rw [effect_bind, effect_wordArgument _ _ _ operand rfl, word]
  exact effect_setPins _ _ _

theorem effect_loadPins (target pinToken : Token) (name : List Char)
    (named : target.lexeme = .register name) (isPin : pinToken.kind.isPin = true)
    (range : PinRange) (read : pinToken.lexeme.readPinRange = .ok range)
    (bits : List Bool) (observed : machine.pins.readRange range = .ok bits) (current : Word)
    (held : machine.registers.get (String.ofList name) = .ok current) :
    (Operation.loadPins.behavior [target, pinToken]).effect machine =
      machine.setRegister (String.ofList name) (current ||| wordOfBits bits) := by
  simp only [behavior]
  rw [effect_bind, effect_registerArgument _ _ _ target rfl name named]
  simp only
  rw [effect_bind, effect_pinArgument _ _ _ pinToken rfl isPin range read]
  simp only
  rw [effect_bind, effect_pins, observed]
  simp only
  rw [effect_bind, effect_register, held]
  exact effect_setRegister _ _ _

theorem effect_clearPins (pinToken : Token) (isPin : pinToken.kind.isPin = true)
    (range : PinRange) (read : pinToken.lexeme.readPinRange = .ok range) :
    (Operation.clearPins.behavior [pinToken]).effect machine =
      machine.setPins range (List.replicate range.count false) := by
  simp only [behavior]
  rw [effect_bind, effect_pinArgument _ _ _ pinToken rfl isPin range read]
  exact effect_setPins _ _ _

end Operation

end PinMachine
