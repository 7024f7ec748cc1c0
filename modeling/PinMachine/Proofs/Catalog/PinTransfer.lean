import PinMachine.Proofs.Catalog.Execution
import PinMachine.Proofs.Interpreter.Calls
import PinMachine.Proofs.Reference.Numbers

/-!
Words in pins. A word is stored in pins with its lowest bit at the last pin, and bits are
loaded in the same order, so what was stored comes back, together with what the register
held before and what the host drives into the pins. A range may be longer than a word: the
pins before its last sixteen are turned off by a store and ignored by a load. In the other
direction a load into an empty register, followed by a store of it, makes the outputs of at
most sixteen pins what was observed at them.
-/

namespace PinMachine

/-- The last pins of a range, at most as many as a word has bits. -/
def PinRange.wordPart (range : PinRange) : PinRange :=
  ⟨range.last + 1 - min range.count 16, range.last⟩

theorem PinRange.count_wordPart (range : PinRange) : range.wordPart.count = min range.count 16 := by
  have covered : range.count = range.last + 1 - range.first := rfl
  change range.last + 1 - (range.last + 1 - min range.count 16) = _
  omega

theorem PinRange.testBit_bitsOf (range : PinRange) (side : List Bool) (place : Nat) :
    (Reference.numberOfBits (range.bitsOf side)).testBit place =
      (decide (place < range.count) && Pins.bitAt side (range.last - place)) := by
  have covered : range.count = range.last + 1 - range.first := rfl
  rw [Reference.testBit_numberOfBits]
  by_cases within : place < range.count
  · have length : place < (range.bitsOf side).length := by
      rw [bitsOf, indices, List.length_map, List.length_range']
      exact within
    rw [List.getElem?_reverse length]
    simp only [bitsOf, indices, List.length_map, List.length_range', List.getElem?_map]
    rw [List.getElem?_range' (by omega), Option.map_some, Option.getD_some, decide_eq_true within,
      Bool.true_and]
    congr 1
    omega
  · have length : (range.bitsOf side).reverse.length ≤ place := by
      rw [List.length_reverse, bitsOf, indices, List.length_map, List.length_range']
      omega
    rw [List.getElem?_eq_none length, Option.getD_none, decide_eq_false within, Bool.false_and]

namespace Pins

variable {count : Nat} {pins : Pins}

/-- The pins of a range hold a number on their output side, and nothing else is different. -/
structure Stored (range : PinRange) (number : Nat) (before after : Pins) : Prop where
  inputs : after.inputs = before.inputs
  inside : ∀ index, range.first ≤ index → index ≤ range.last →
    after.outputs[index]? = some (number.testBit (range.last - index))
  outside : ∀ index, index < range.first ∨ range.last < index →
    after.outputs[index]? = before.outputs[index]?

theorem Wide.stored (wide : pins.Wide count) (range : PinRange) (value : Word)
    (forward : range.first ≤ range.last) (inside : range.last < count) :
    Stored range value.toNat pins
      { pins with
        outputs := pins.outputs.take range.first ++ wordBits value range.count ++
          pins.outputs.drop (range.last + 1) } := by
  rw [Reference.drive_wordBits pins.outputs range value forward
    (by rw [wide.outputs]; exact inside)]
  refine ⟨rfl, ?_, ?_⟩
  · intro index notBefore notBehind
    simp only
    rw [List.getElem?_mapIdx, List.getElem?_eq_getElem (by rw [wide.outputs]; omega),
      Option.map_some, if_pos ⟨notBefore, notBehind⟩]
  · intro index apart
    simp only
    rw [List.getElem?_mapIdx]
    cases pins.outputs[index]? with
    | none => rfl
    | some bit => rw [Option.map_some, if_neg (by omega)]

end Pins

/-- A register holds what it held before, the word that was stored as far as the pins reach,
and the inputs of the pins. -/
theorem Pins.Stored.loaded_toNat {count : Nat} {before after : Pins} {range : PinRange}
    {value : Word} (stored : Stored range value.toNat before after) (wide : after.Wide count)
    (current : Word) :
    (current ||| wordOfBits (range.bitsOf after.values)).toNat =
      current.toNat ||| value.toNat % 2 ^ range.count |||
        Reference.numberOfBits (range.wordPart.bitsOf before.inputs) := by
  have covered : range.count = range.last + 1 - range.first := rfl
  apply Nat.eq_of_testBit_eq
  intro place
  rw [BitVec.toNat_or, Nat.testBit_or, Nat.testBit_or, Nat.testBit_or, Nat.testBit_mod_two_pow,
    Reference.wordOfBits_toNat, show 65536 = 2 ^ 16 by rfl, Nat.testBit_mod_two_pow,
    PinRange.testBit_bitsOf, PinRange.testBit_bitsOf, range.count_wordPart, wide.bitAt_values,
    stored.inputs, Bool.or_assoc]
  congr 1
  by_cases within : place < range.count
  · have output : bitAt after.outputs (range.last - place) = value.toNat.testBit place := by
      unfold bitAt
      rw [stored.inside _ (by omega) (by omega), Option.getD_some]
      congr 1
      omega
    rw [output]
    by_cases low : place < 16
    · have both : place < min range.count 16 := by omega
      simp only [within, low, both, decide_true, Bool.true_and]
      exact Bool.or_comm _ _
    · -- A word has no bits from the sixteenth on.
      have beyond : ¬ place < min range.count 16 := by omega
      have off : value.toNat.testBit place = false := by
        rw [BitVec.testBit_toNat, BitVec.getLsbD_of_ge value place (by omega)]
      simp only [low, beyond, off, decide_false, Bool.false_and, Bool.and_false, Bool.or_false]
  · have beyond : ¬ place < min range.count 16 := by omega
    simp only [within, beyond, decide_false, Bool.false_and, Bool.and_false, Bool.or_false]

/-! ### What comes in between -/

/-- The event may change the pins, or the register with a name. -/
def Event.Touches (config : Config) (name : String) : Event → Prop
  | .request (.setPins _ _) => True
  | .request (.setRegister other _) => other = name
  | .request .pushFrame | .request .popFrame =>
      name ∈ config.stackRegisterNames ∨ name = Machine.returnAddressRegister
  | .request _ => False
  | .pins (.input _) | .pins (.output _) | .pins (.value _) => False
  | .pins _ => True
  | .enterLine | .leaveLine _ | .idle => False

instance (config : Config) (name : String) (event : Event) :
    Decidable (event.Touches config name) :=
  match event with
  | .request (.setPins _ _) => .isTrue trivial
  | .request (.setRegister other _) => inferInstanceAs (Decidable (other = name))
  | .request .pushFrame | .request .popFrame => inferInstanceAs (Decidable (_ ∨ _))
  | .request .currentLine | .request (.jump _) | .request (.jumpToLabel _)
  | .request (.sleep _) | .request (.labelAddress _) | .request (.register _)
  | .request (.pins _) => .isFalse id
  | .pins (.input _) | .pins (.output _) | .pins (.value _) => .isFalse id
  | .pins (.setInputs _) | .pins (.setOutputs _) | .pins (.setInput _ _)
  | .pins (.setOutput _ _) => .isTrue trivial
  | .enterLine | .leaveLine _ | .idle => .isFalse id

namespace Machine

variable {config : Config} {machine : Machine}

theorem Shaped.undergo_untouched (shaped : machine.Shaped config) (valid : config.Valid)
    (name : String) (event : Event) (untouched : ¬ event.Touches config name) :
    (machine.undergo event).pins = machine.pins ∧
      (machine.undergo event).registers.get? name = machine.registers.get? name := by
  cases event with
  | enterLine => exact ⟨rfl, rfl⟩
  | leaveLine result => exact ⟨rfl, rfl⟩
  | idle => exact ⟨rfl, rfl⟩
  | pins operation =>
      cases operation with
      | input index => exact ⟨rfl, rfl⟩
      | output index => exact ⟨rfl, rfl⟩
      | value index => exact ⟨rfl, rfl⟩
      | _ => exact False.elim (untouched trivial)
  | request request =>
      cases request with
      | setPins range bits => exact False.elim (untouched trivial)
      | setRegister other value =>
          change (machine.setRegister other value).2.pins = _ ∧
            (machine.setRegister other value).2.registers.get? name = _
          by_cases known : other ∈ machine.registers.names
          · rw [machine.setRegister_eq_write other value known]
            refine ⟨rfl, ?_⟩
            change (machine.registers.write other value).get? name = _
            rw [machine.registers.get?_write _ _ _ known, if_neg (Ne.symm untouched)]
          · rw [machine.setRegister_eq_error other value known]
            exact ⟨rfl, rfl⟩
      | pushFrame =>
          obtain ⟨general, apart⟩ := not_or.mp untouched
          have opening := shaped.opening
          change machine.pushFrame.2.pins = _ ∧ machine.pushFrame.2.registers.get? name = _
          generalize machine.pushFrame = result at opening
          cases opening with
          | opened address room =>
              exact ⟨rfl, by rw [shaped.get?_opened valid, if_neg general, if_neg apart]⟩
          | full address full => exact ⟨rfl, rfl⟩
          | tooFar address => exact ⟨rfl, rfl⟩
      | popFrame =>
          obtain ⟨general, apart⟩ := not_or.mp untouched
          change machine.popFrame.2.pins = _ ∧ machine.popFrame.2.registers.get? name = _
          cases frames : machine.stack.frames with
          | nil =>
              rw [machine.popFrame_of_empty frames]
              exact ⟨rfl, rfl⟩
          | cons frame older =>
              rw [shaped.popFrame_eq frame older frames]
              exact ⟨rfl, by rw [shaped.get?_closed valid _ _ frames, if_neg general, if_neg apart]⟩
      | jumpToLabel label =>
          change (machine.jumpToLabel label).pins = _ ∧
            (machine.jumpToLabel label).registers.get? name = _
          unfold jumpToLabel
          split <;> exact ⟨rfl, rfl⟩
      | _ => exact ⟨rfl, rfl⟩

theorem Shaped.after_untouched (shaped : machine.Shaped config) (valid : config.Valid)
    (name : String) (events : List Event)
    (untouched : ∀ event ∈ events, ¬ event.Touches config name) :
    (machine.after events).pins = machine.pins ∧
      (machine.after events).registers.get? name = machine.registers.get? name := by
  induction events generalizing machine with
  | nil => exact ⟨rfl, rfl⟩
  | cons event rest ih =>
      obtain ⟨first, later⟩ := List.forall_mem_cons.mp untouched
      obtain ⟨samePins, sameRegister⟩ := shaped.undergo_untouched valid name event first
      obtain ⟨pins, register⟩ := ih (shaped.undergo event) later
      exact ⟨pins.trans samePins, register.trans sameRegister⟩

end Machine

/-! ### Lines that store and load -/

theorem Operation.Applies.of_storePins {config : Config} {program : Program}
    {pins operand : Token} (applies : Operation.storePins.Applies config program [pins, operand]) :
    pins.IsPins config ∧ operand.IsWord config := by
  cases applies with
  | storePins _pins _operand isPins isWord => exact ⟨isPins, isWord⟩

theorem Operation.Applies.of_loadPins {config : Config} {program : Program}
    {target pins : Token} (applies : Operation.loadPins.Applies config program [target, pins]) :
    target.IsRegister config ∧ pins.IsPins config := by
  cases applies with
  | loadPins _target _pins isRegister isPins => exact ⟨isRegister, isPins⟩

namespace Interpreter

variable {config : Config} {mode : CommentMode} {source : String} {made : Interpreter}
  {commands : List Command} {range : PinRange}

/-- The next step executes a line that stores the word of an operand in the pins of a range. -/
def StoresPins (program : Program) (interpreter : Interpreter) (range : PinRange)
    (operand : Lexeme) : Prop :=
  ∃ pins source, interpreter.Enters program "stp" [pins, source] ∧
    pins.lexeme.readPinRange = .ok range ∧ source.lexeme = operand

/-- The next step executes a line that adds the bits of the pins of a range to a register. -/
def LoadsPins (program : Program) (interpreter : Interpreter) (range : PinRange)
    (name : List Char) : Prop :=
  ∃ target pins, interpreter.Enters program "ldp" [target, pins] ∧
    target.lexeme = .register name ∧ pins.lexeme.readPinRange = .ok range

theorem StoresPins.step {operand : Lexeme}
    (stores : (made.after commands).StoresPins (.ofSource mode source) range operand)
    (accepted : create config (.ofSource mode source) .standard = .ok made) (value : Word)
    (word : (made.after commands).machine.wordOf operand = .ok value) :
    (made.after commands).step.result = .ok () ∧
      (made.after commands).step.interpreter.machine.registers =
        (made.after commands).machine.registers ∧
      Pins.Stored range value.toNat (made.after commands).machine.pins
        (made.after commands).step.interpreter.machine.pins := by
  obtain ⟨pins, operandToken, enters, read, rfl⟩ := stores
  obtain ⟨index, line, given, executes⟩ :=
    Enters.exists_executes .storePins enters accepted
  have applies := executes.applies
  rw [given] at applies
  obtain ⟨⟨_range, isPin, alsoRead, forward, inside⟩, isWord⟩ := applies.of_storePins
  obtain rfl : _range = range := Except.ok.inj (alsoRead.symm.trans read)
  rw [← wordOf_focus _ operandToken isWord] at word
  have width : (wordBits value _range.count).length = _range.count := by
    simp only [wordBits, List.length_map, List.length_range]
  have effect : (Operation.storePins.behavior line.arguments).effect
      (made.after commands).focus.machine =
        (.ok (), (made.after commands).focus.machine.driven _range
          (wordBits value _range.count)) := by
    rw [given, Operation.effect_storePins pins operandToken isPin _range read value word]
    exact executes.shaped.setPins_eq _range _ forward inside width
  obtain ⟨succeeds, reached⟩ := executes.step_of_effect enters.1 effect
  rw [reached]
  exact ⟨succeeds, rfl, executes.shaped.pins.stored _range value forward inside⟩

theorem LoadsPins.step {name : List Char}
    (loads : (made.after commands).LoadsPins (.ofSource mode source) range name)
    (accepted : create config (.ofSource mode source) .standard = .ok made) (current : Word)
    (held : (made.after commands).machine.registers.get? (String.ofList name) = some current) :
    range.first ≤ range.last ∧ range.last < config.pins ∧
      (made.after commands).step.result = .ok () ∧
      (made.after commands).step.interpreter.machine.pins =
        (made.after commands).machine.pins ∧
      (made.after commands).step.interpreter.machine.registers.get? (String.ofList name) =
        some (current ||| wordOfBits (range.bitsOf (made.after commands).machine.pins.values)) := by
  obtain ⟨target, pins, enters, named, read⟩ := loads
  obtain ⟨index, line, given, executes⟩ :=
    Enters.exists_executes .loadPins enters accepted
  have applies := executes.applies
  rw [given] at applies
  obtain ⟨⟨_name, alsoNamed, known⟩, _range, isPin, alsoRead, forward, inside⟩ :=
    applies.of_loadPins
  obtain rfl : _range = range := Except.ok.inj (alsoRead.symm.trans read)
  obtain rfl : _name = name := Lexeme.register.inj (alsoNamed.symm.trans named)
  have effect : (Operation.loadPins.behavior line.arguments).effect
      (made.after commands).focus.machine =
        (.ok (), (made.after commands).focus.machine.write (String.ofList _name)
          (current ||| wordOfBits (_range.bitsOf (made.after commands).machine.pins.values))) := by
    rw [given, Operation.effect_loadPins target pins _name named isPin _range read _
      (executes.shaped.pins.readRange_eq_bitsOf _range (Nat.lt_of_le_of_lt forward inside) inside) current
      ((RegisterBank.get_eq_ok_iff _ _ _).mpr held)]
    exact executes.shaped.setRegister_eq _ _ known
  obtain ⟨succeeds, reached⟩ := executes.step_of_effect enters.1 effect
  rw [reached]
  refine ⟨forward, inside, succeeds, rfl, ?_⟩
  change ((made.after commands).focus.machine.registers.write _ _).get? _ = _
  rw [RegisterBank.get?_write _ _ _ _ (executes.shaped.mem_names _ known), if_pos rfl]

/-- What becomes of the pins of a range and a register when a word is stored in the pins and
these are then loaded into the register. -/
structure StoredThenLoaded (range : PinRange) (name : String) (value current : Word)
    (before after : Machine) : Prop where
  register : ∃ word, after.registers.get? name = some word ∧
    word.toNat = current.toNat ||| value.toNat % 2 ^ range.count |||
      Reference.numberOfBits (range.wordPart.bitsOf before.pins.inputs)
  pins : Pins.Stored range value.toNat before.pins after.pins
  /-- The pins before the last sixteen are off. -/
  beyond : ∀ index, range.first ≤ index → index + 16 ≤ range.last →
    after.pins.outputs[index]? = some false

/-- What becomes of the pins of a range when they are loaded into an empty register and this
is then stored in them. -/
structure LoadedThenStored (range : PinRange) (before after : Machine) : Prop where
  inputs : after.pins.inputs = before.pins.inputs
  inside : ∀ index, range.first ≤ index → index ≤ range.last →
    after.pins.outputs[index]? =
      some (Pins.bitAt before.pins.inputs index || Pins.bitAt before.pins.outputs index)
  outside : ∀ index, index < range.first ∨ range.last < index →
    after.pins.outputs[index]? = before.pins.outputs[index]?

/-- Pins that are stored and loaded give back what was stored, and pins that are loaded and
stored hold what was observed, whatever happens in between that does not touch the pins or
the register. -/
theorem stored_pins_are_loaded_back (config : Config) (mode : CommentMode) (source : String)
    (made : Interpreter)
    (accepted : create config (.ofSource mode source) .standard = .ok made)
    (commands between : List Command) (range : PinRange) (name : List Char)
    (untouched : ∀ event ∈ (made.after commands).step.interpreter.sessionEvents between,
      ¬ event.Touches config (String.ofList name)) :
    (∀ operand value current,
      (made.after commands).StoresPins (.ofSource mode source) range operand →
      (made.after commands).machine.wordOf operand = .ok value →
      (made.after commands).machine.registers.get? (String.ofList name) = some current →
      ((made.after commands).step.interpreter.after between).LoadsPins (.ofSource mode source)
        range name →
      (made.after commands).step.result = .ok () ∧
        ((made.after commands).step.interpreter.after between).step.result = .ok () ∧
        StoredThenLoaded range (String.ofList name) value current
          (made.after commands).machine
          ((made.after commands).step.interpreter.after between).step.interpreter.machine) ∧
    (range.count ≤ 16 →
      (made.after commands).LoadsPins (.ofSource mode source) range name →
      (made.after commands).machine.registers.get? (String.ofList name) = some 0 →
      ((made.after commands).step.interpreter.after between).StoresPins (.ofSource mode source)
        range (.register name) →
      (made.after commands).step.result = .ok () ∧
        ((made.after commands).step.interpreter.after between).step.result = .ok () ∧
        LoadedThenStored range (made.after commands).machine
          ((made.after commands).step.interpreter.after between).step.interpreter.machine) := by
  have covered : range.count = range.last + 1 - range.first := rfl
  have valid := (create_eq_ok config _ .standard made accepted).1
  have first := steady_of_session config mode source .standard made accepted commands
  have second := steady_of_session config mode source .standard made accepted
    (commands ++ .step :: between)
  have joined : made.after (commands ++ .step :: between) =
      (made.after commands).step.interpreter.after between := List.foldl_append
  obtain ⟨samePins, sameRegister⟩ :=
    (first.step (Program.ofSource_indexed mode source)).shaped.after_untouched valid _ _ untouched
  rw [← after_machine, ← joined] at samePins sameRegister
  rw [← joined]
  constructor
  · intro operand value current stores word held loads
    obtain ⟨stored, sameBank, pins⟩ := stores.step accepted value word
    rw [← samePins] at pins
    rw [sameBank, held] at sameRegister
    obtain ⟨_forward, _inside, loaded, keptPins, register⟩ :=
      loads.step accepted current sameRegister
    rw [← keptPins] at pins
    refine ⟨stored, loaded, ⟨_, register, ?_⟩, pins, ?_⟩
    · rw [keptPins] at pins
      exact pins.loaded_toNat second.shaped.pins current
    · intro index notBefore beyond
      rw [pins.inside index notBefore (by omega), BitVec.testBit_toNat,
        BitVec.getLsbD_of_ge value _ (by omega)]
  · intro short loads empty stores
    obtain ⟨_forward, _inside, loaded, keptPins, register⟩ := loads.step accepted 0 empty
    have alone :
        (0 : Word) ||| wordOfBits (range.bitsOf (made.after commands).machine.pins.values) =
          wordOfBits (range.bitsOf (made.after commands).machine.pins.values) := BitVec.zero_or
    rw [← sameRegister, alone] at register
    have word := Machine.wordOf_register (made.after (commands ++ .step :: between)).machine name
    rw [(RegisterBank.get_eq_ok_iff _ _ _).mpr register] at word
    obtain ⟨stored, _sameBank, pins⟩ := stores.step accepted _ word
    rw [samePins, keptPins] at pins
    refine ⟨loaded, stored, pins.inputs, ?_, pins.outside⟩
    intro index notBefore notBehind
    rw [pins.inside index notBefore notBehind, Reference.wordOfBits_toNat,
      show 65536 = 2 ^ 16 by rfl, Nat.testBit_mod_two_pow, PinRange.testBit_bitsOf,
      first.shaped.pins.bitAt_values]
    have within : range.last - index < range.count := by omega
    have low : range.last - index < 16 := by omega
    have place : range.last - (range.last - index) = index := by omega
    rw [decide_eq_true within, decide_eq_true low, Bool.true_and, Bool.true_and, place]

/-- Eighteen pins hold a word in their last sixteen and load it back, with one of the two pins
that the host drives; sixteen of them are loaded into another register and stored from it. -/
theorem stored_pins_are_loaded_back_beyond_word :
    ∃ made : Interpreter,
      create { pinCount := 20, basicRegisterCount := 2 } (.ofSource .skip
        "mov $r0 0x0100\nstp .p1..p18 0x24A5\nadd 1\nldp $r0 .p1:18\nldp $r1 .p3:16\nstp .p3:16 $r1")
        .standard = .ok made ∧
      StoredThenLoaded ⟨1, 18⟩ "r0" 0x24A5 0x0100
        (made.after [.pins (.setInput 1 true), .pins (.setInput 3 true), .step]).machine
        (made.after [.pins (.setInput 1 true), .pins (.setInput 3 true), .step, .step, .step,
          .pins (.value 3), .step]).machine ∧
      (made.after [.pins (.setInput 1 true), .pins (.setInput 3 true),
        .run 4]).machine.registers.get? "r0" = some 0xA5A5 ∧
      LoadedThenStored ⟨3, 18⟩
        (made.after [.pins (.setInput 1 true), .pins (.setInput 3 true), .run 4]).machine
        (made.after [.pins (.setInput 1 true), .pins (.setInput 3 true), .run 4, .step,
          .step]).machine := by
  obtain ⟨made, accepted, tested⟩ := exists_create_of_any
    { pinCount := 20, basicRegisterCount := 2 } (.ofSource .skip
      "mov $r0 0x0100\nstp .p1..p18 0x24A5\nadd 1\nldp $r0 .p1:18\nldp $r1 .p3:16\nstp .p3:16 $r1")
    .standard
    (fun made =>
      let first := made.after [.pins (.setInput 1 true), .pins (.setInput 3 true), .step]
      let second := first.step.interpreter.after [.step, .pins (.value 3)]
      let third := made.after [.pins (.setInput 1 true), .pins (.setInput 3 true), .run 4]
      let fourth := third.step.interpreter
      [first, second, third, fourth].all (fun reached => reached.phase == .executing) &&
        [first, second, third, fourth].map (fun reached => reached.machine.flow.next) ==
          [some 1, some 3, some 4, some 5] &&
        (first.step.interpreter.sessionEvents [.step, .pins (.value 3)]).all (fun event =>
          !decide (event.Touches { pinCount := 20, basicRegisterCount := 2 } "r0")) &&
        first.machine.registers.get? "r0" == some 0x0100 &&
        third.machine.registers.get? "r0" == some 0xA5A5 &&
        third.machine.registers.get? "r1" == some 0)
    (by decide +kernel)
  simp only [Bool.and_eq_true, List.all_cons, List.all_nil, beq_iff_eq, List.map_cons,
    List.map_nil, List.cons.injEq, List.all_eq_true, Bool.not_eq_true', decide_eq_false_iff_not]
    at tested
  obtain ⟨⟨⟨⟨⟨⟨stores, loads, loadsNext, storesNext, _⟩, first, second, third, fourth, _⟩,
    untouched⟩, held⟩, loaded⟩, empty⟩ := tested
  have reads : ((Program.ofSource .skip
      "mov $r0 0x0100\nstp .p1..p18 0x24A5\nadd 1\nldp $r0 .p1:18\nldp $r1 .p3:16\nstp .p3:16 $r1").lines.map
        fun line => (line.instructionName?, line.arguments)) =
      [(some "mov", [⟨.register "r0".toList, 0, 4⟩, ⟨.hex "0100".toList, 0, 8⟩]),
        (some "stp", [⟨.pinRange ['1'] ['1', '8'], 1, 4⟩, ⟨.hex "24A5".toList, 1, 13⟩]),
        (some "add", [⟨.integer ['1'], 2, 4⟩]),
        (some "ldp", [⟨.register "r0".toList, 3, 4⟩, ⟨.pinRangeLength ['1'] ['1', '8'], 3, 8⟩]),
        (some "ldp", [⟨.register "r1".toList, 4, 4⟩, ⟨.pinRangeLength ['3'] ['1', '6'], 4, 8⟩]),
        (some "stp", [⟨.pinRangeLength ['3'] ['1', '6'], 5, 4⟩,
          ⟨.register "r1".toList, 5, 11⟩])] := by decide +kernel
  refine ⟨made, accepted, ?_, loaded, ?_⟩
  · have round := stored_pins_are_loaded_back _ _ _ made accepted
      [.pins (.setInput 1 true), .pins (.setInput 3 true), .step] [.step, .pins (.value 3)]
      ⟨1, 18⟩ "r0".toList untouched
    exact (round.1 (.hex "24A5".toList) 0x24A5 0x0100
      ⟨⟨.pinRange ['1'] ['1', '8'], 1, 4⟩, ⟨.hex "24A5".toList, 1, 13⟩,
        enters_of_reads 1 stores first (by rw [← List.getElem?_map, reads]; rfl), by decide, rfl⟩
      (by rfl) held
      ⟨⟨.register "r0".toList, 3, 4⟩, ⟨.pinRangeLength ['1'] ['1', '8'], 3, 8⟩,
        enters_of_reads 3 loads second (by rw [← List.getElem?_map, reads]; rfl), rfl, by decide⟩).2.2
  · have round := stored_pins_are_loaded_back _ _ _ made accepted
      [.pins (.setInput 1 true), .pins (.setInput 3 true), .run 4] [] ⟨3, 18⟩ "r1".toList
      (by intro event member; cases member)
    exact (round.2 (by decide)
      ⟨⟨.register "r1".toList, 4, 4⟩, ⟨.pinRangeLength ['3'] ['1', '6'], 4, 8⟩,
        enters_of_reads 4 loadsNext third (by rw [← List.getElem?_map, reads]; rfl), rfl, by decide⟩
      empty
      ⟨⟨.pinRangeLength ['3'] ['1', '6'], 5, 4⟩, ⟨.register "r1".toList, 5, 11⟩,
        enters_of_reads 5 storesNext fourth (by rw [← List.getElem?_map, reads]; rfl), by decide, rfl⟩).2.2

end Interpreter

end PinMachine
