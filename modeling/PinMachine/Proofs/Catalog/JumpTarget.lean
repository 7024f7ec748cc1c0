import PinMachine.Proofs.Reference.Abstraction
import PinMachine.Proofs.Validation.WellFormed

/-!
Targets of jumps. The line of a declaration can be left behind by its label, by a constant
that is its number counted from one, or by a register into which the label was moved. The
label is never turned into a word on the way to a jump, the others are; all of them lead to
the first instruction line after the declaration, from every jump and every call.
-/

namespace PinMachine

variable {config : Config} {program : Program} {machine : Machine} {label : String}
  {index : Nat} {target : Token}

theorem Reference.labelAddress?_of_distinct (program : Program)
    (distinct : (program.lines.filterMap Line.labelName?).Nodup) (index : Nat) (line : Line)
    (place : program.lines[index]? = some line) (label : String)
    (declares : line.labelName? = some label) :
    labelAddress? program label = some (index + 1) := by
  unfold labelAddress?
  obtain ⟨inside, here⟩ := List.getElem?_eq_some_iff.mp place
  have found : program.lines.findIdx? (fun line => line.labelName? == some label) =
      some index := by
    rw [List.findIdx?_eq_some_iff_getElem]
    refine ⟨inside, by rw [here, declares]; exact beq_self_eq_true _, ?_⟩
    intro earlier before same
    have apart := List.pairwise_filterMap.mp distinct
    have differ := List.pairwise_iff_getElem.mp apart earlier index (by omega) inside before
    exact differ label (beq_iff_eq.mp same) label (by rw [here, declares]) rfl
  rw [found]
  rfl

theorem Program.labelLine?_of_accepted (mode : CommentMode) (source : String) (config : Config)
    (catalog : Catalog)
    (accepted : ((ofSource mode source).validate config catalog).isOk = true)
    (index : Nat) (line : Line) (place : (ofSource mode source).lines[index]? = some line)
    (label : String) (declares : line.labelName? = some label) :
    (ofSource mode source).labelLine? label = some index := by
  have distinct : ((ofSource mode source).lines.filterMap Line.labelName?).Nodup := by
    rw [← declareLabels_clean_iff _ config]
    intro entry reported
    exact (Diagnostics.isOk_ofList_iff _).mp accepted entry (List.mem_append_left _ reported)
  have address := Reference.labelAddress?_of_distinct _ distinct index line place label declares
  rw [Reference.labelAddress?_eq _ (ofSource_indexed mode source)] at address
  obtain ⟨found, declared, number⟩ := Option.map_eq_some_iff.mp address
  rw [declared, Nat.succ.inj number]

/-- The token leads past the declaration of a label on a line: it is the label itself, or it
stands for the number of the line, counted from one. -/
inductive Token.LeadsPast (machine : Machine) (label : String) (index : Nat) (target : Token) :
    Prop
  | label (shape : target.lexeme = .labelArgument label.toList)
  | constant (base : Nat) (digits : List Char)
      (numeral : target.lexeme.numeral? = some (base, digits))
      (value : numeralValue base digits = index + 1) (fits : index + 1 ≤ maxWord)
  | register (name : List Char) (held : Word) (shape : target.lexeme = .register name)
      (content : machine.registers.get? (String.ofList name) = some held)
      (value : held.toNat = index + 1)

/-- No call writes the token: it is not a register that calls save or put an address in. -/
def Token.KeptByCalls (config : Config) (target : Token) : Prop :=
  ∀ name, target.lexeme = .register name →
    String.ofList name ∉ config.stackRegisterNames ∧ String.ofList name ≠ "ra"

namespace Token.LeadsPast

theorem effect_goTo (leads : target.LeadsPast machine label index)
    (declared : machine.labelAddress? label = some (index + 1)) :
    (Action.goTo target).effect machine = (.ok (), machine.jump (index + 1)) := by
  cases leads with
  | label shape =>
      rw [Action.effect_goTo_label target _ shape, String.ofList_toList]
      simp only [Machine.jumpToLabel, declared]
  | constant base digits numeral value fits =>
      obtain ⟨constant, read⟩ :=
        target.lexeme.readConstant_of_numeral base digits numeral (by omega)
      rw [Action.effect_goTo_constant target _ constant read, value,
        Machine.toNat_address _ fits]
  | register name held shape content value =>
      rw [Action.effect_goTo_register target name held shape
        ((RegisterBank.get_eq_ok_iff _ _ _).mpr content), value]

/-- In the frame of a call just opened, a kept token still leads past the declaration. -/
theorem opened (leads : target.LeadsPast machine label index) (shaped : machine.Shaped config)
    (valid : config.Valid) (kept : target.KeptByCalls config) :
    target.LeadsPast machine.opened label index := by
  cases leads with
  | label shape => exact .label shape
  | constant base digits numeral value fits => exact .constant base digits numeral value fits
  | register name held shape content value =>
      obtain ⟨general, apart⟩ := kept name shape
      apply register name held shape _ value
      rw [shaped.get?_opened valid, if_neg general]
      exact (if_neg apart).trans content

end Token.LeadsPast

/-! ### Operations with a target -/

/-- The operation with these operands behind its target goes to the target, from the machine
that is given last: every operand can be read, a comparison is true, and a call can be
opened. -/
inductive Operation.GoesFrom (config : Config) (machine : Machine) (target : Token) :
    Operation → List Token → Machine → Prop
  | jump : GoesFrom config machine target .jump [] machine
  | branch (comparison : Comparison) (first second : Token) (left right : Word)
      (leftWord : machine.wordOf first.lexeme = .ok left)
      (rightWord : machine.wordOf second.lexeme = .ok right)
      (holds : comparison.holds left right = true) :
      GoesFrom config machine target (.branch comparison) [first, second] machine
  | call (kept : target.KeptByCalls config) (called : Machine)
      (pushed : machine.pushFrame = (.ok (), called)) :
      GoesFrom config machine target .call [] called

theorem Operation.GoesFrom.effect {operation : Operation} {operands : List Token}
    {before : Machine} (goes : operation.GoesFrom config machine target operands before)
    (shaped : machine.Shaped config) (valid : config.Valid)
    (leads : target.LeadsPast machine label index)
    (declared : machine.labelAddress? label = some (index + 1)) :
    (operation.behavior (target :: operands)).effect machine =
      (.ok (), before.jump (index + 1)) := by
  cases goes with
  | jump =>
      rw [effect_jump_operation]
      exact leads.effect_goTo declared
  | branch comparison first second left right leftWord rightWord holds =>
      rw [effect_branch comparison target first second left right leftWord rightWord,
        if_pos holds]
      exact leads.effect_goTo declared
  | call kept called pushed =>
      obtain ⟨_address, _room, rfl⟩ := shaped.pushFrame_eq_ok _ pushed
      rw [effect_call_operation target _ pushed]
      exact (leads.opened shaped valid kept).effect_goTo declared

theorem Operation.GoesFrom.program_eq {operation : Operation} {operands : List Token}
    {before : Machine} (goes : operation.GoesFrom config machine target operands before)
    (shaped : machine.Shaped config) : before.program = machine.program := by
  cases goes with
  | jump => rfl
  | branch comparison first second left right leftWord rightWord holds => rfl
  | call kept called pushed =>
      obtain ⟨_address, _room, rfl⟩ := shaped.pushFrame_eq_ok _ pushed
      rfl

/-- What the declaration of a label on a line means to the operations that can name it.
Whichever way a target is written, the whole machine is the same after a jump. A call that is
refused changes nothing. Moving the label into a register makes the register one of the ways,
unless the number of the line is too large for a word. -/
structure Machine.JumpFormsAgree (config : Config) (machine : Machine) (label : String)
    (index : Nat) : Prop where
  goes : ∀ target operation operands before, target.LeadsPast machine label index →
    Operation.GoesFrom config machine target operation operands before →
      (operation.behavior (target :: operands)).effect machine =
        (.ok (), before.jump (index + 1))
  refused : ∀ target fault, machine.pushFrame.1 = .error fault →
    (Operation.call.behavior [target]).effect machine = (.error fault, machine)
  stores : ∀ (register source : Token) (name : List Char), register.lexeme = .register name →
    String.ofList name ∈ config.registerNames → source.lexeme = .labelArgument label.toList →
      index + 1 ≤ maxWord →
        (Operation.move.behavior [register, source]).effect machine =
            (.ok (), machine.write (String.ofList name) (BitVec.ofNat 16 (index + 1))) ∧
          register.LeadsPast (machine.write (String.ofList name) (BitVec.ofNat 16 (index + 1)))
            label index
  storesNothing : ∀ (register source : Token) (name : List Char),
    register.lexeme = .register name → source.lexeme = .labelArgument label.toList →
      maxWord < index + 1 →
        (Operation.move.behavior [register, source]).effect machine =
          (.error (.addressOutOfRange (index + 1)), machine)

theorem Machine.Shaped.jumpFormsAgree (shaped : machine.Shaped config) (valid : config.Valid)
    (declared : machine.labelAddress? label = some (index + 1)) :
    machine.JumpFormsAgree config label index where
  goes := by
    intro target operation operands before leads goes
    exact goes.effect shaped valid leads declared
  refused := by
    intro target fault refused
    rcases shaped.pushFrame_cases with ⟨_address, _room, pushed⟩ | ⟨other, kept, _fault, _fatal⟩
    · rw [pushed] at refused
      cases refused
    · rw [kept] at refused
      cases refused
      exact Operation.effect_call_error target _ _ kept
  stores := by
    intro register source name named known shape fits
    have word : machine.wordOf source.lexeme = .ok (BitVec.ofNat 16 (index + 1)) := by
      rw [shape, machine.wordOf_label _ _ (by rw [String.ofList_toList]; exact declared),
        if_pos fits]
    refine ⟨?_, .register name _ named ?_ (toNat_address _ fits)⟩
    · rw [Operation.effect_move register source name _ named word]
      exact shaped.setRegister_eq _ _ known
    · change (machine.registers.write _ _).get? _ = _
      rw [machine.registers.get?_write _ _ _ (shaped.mem_names _ known), if_pos rfl]
  storesNothing := by
    intro register source name named shape beyond
    have word : machine.wordOf source.lexeme = .error (.addressOutOfRange (index + 1)) := by
      rw [shape, machine.wordOf_label _ _ (by rw [String.ofList_toList]; exact declared),
        if_neg (Nat.not_le.mpr beyond)]
    exact Operation.effect_move_error register source name _ named word

namespace Interpreter

theorem program_of_passes (config : Config) (program : Program) (catalog : Catalog)
    (made : Interpreter) (accepted : create config program catalog = .ok made)
    (machine : Machine) (passed : made.Passes machine) : machine.program = program := by
  obtain ⟨_valid, _clean, rfl⟩ := create_eq_ok config program catalog made accepted
  obtain ⟨commands, events, _started, rfl⟩ := passed
  exact (Machine.start_shaped config program).after_program events

/-- The next step executes a line that goes to the target, from the machine given last. -/
def EntersJump (config : Config) (program : Program) (interpreter : Interpreter)
    (target : Token) (before : Machine) : Prop :=
  interpreter.phase = .executing ∧
    ∃ current line operation operands, interpreter.machine.flow.next = some current ∧
      program.lines[current]? = some line ∧
      line.instructionName? = some (Operation.mnemonic operation) ∧
      line.arguments = target :: operands ∧
      operation.GoesFrom config interpreter.focus.machine target operands before

/-- A label, the number of its line and a register with this number are the same as targets
of jumps, branches and calls, in every machine that a session passes through, and all of them
make the run go on at the first instruction line behind the declaration, or end. -/
theorem jump_forms_agree (config : Config) (mode : CommentMode) (source : String)
    (made : Interpreter) (accepted : create config (.ofSource mode source) .standard = .ok made)
    (index : Nat) (line : Line) (place : (Program.ofSource mode source).lines[index]? = some line)
    (label : String) (declares : line.labelName? = some label) :
    (∀ machine, made.Passes machine → machine.JumpFormsAgree config label index) ∧
      ∀ commands target before,
        (made.after commands).EntersJump config (.ofSource mode source) target before →
        target.LeadsPast (made.after commands).focus.machine label index →
          (made.after commands).step.result = .ok () ∧
          (made.after commands).step.interpreter.machine =
            chooseNext (before.jump (index + 1)) (.ok ()) ∧
          (made.after commands).step.interpreter.machine.flow.next =
            Reference.firstFrom (.ofSource mode source) (index + 1) := by
  obtain ⟨valid, clean, _starts⟩ := create_eq_ok config _ .standard made accepted
  have declared := Program.labelLine?_of_accepted mode source config .standard clean index line
    place label declares
  have agree : ∀ machine, made.Passes machine → machine.JumpFormsAgree config label index := by
    intro machine passed
    have shaped := shaped_of_passes config _ .standard made accepted machine passed
    apply shaped.jumpFormsAgree valid
    apply machine.labelAddress?_eq
    rw [program_of_passes config _ .standard made accepted machine passed]
    exact declared
  refine ⟨agree, ?_⟩
  intro commands target before enters leads
  obtain ⟨executing, current, inProgram, operation, operands, next, found, instruction, given,
    goes⟩ := enters
  obtain ⟨_current, _line, other, executes⟩ :=
    exists_executes config mode source made accepted commands executing
  obtain rfl : _current = current := Option.some.inj (executes.next.symm.trans next)
  obtain rfl : _line = inProgram := Option.some.inj (executes.place.symm.trans found)
  obtain rfl : other = operation := by
    have looked := Reference.lookup_mnemonic other
    rw [Option.some.inj (executes.instruction.symm.trans instruction),
      Reference.lookup_mnemonic operation] at looked
    exact (Option.some.inj looked).symm
  have effect := (agree _ (made.passes_focus commands executing)).goes target other operands before
    leads goes
  have performed := executes.performs
  rw [given] at performed
  have result : (made.after commands).focus.performLine.result = .ok () := by
    rw [performed]
    exact congrArg Prod.fst effect
  have left : (made.after commands).focus.performLine.machine = before.jump (index + 1) := by
    rw [performed]
    exact congrArg Prod.snd effect
  have same : before.program = .ofSource mode source :=
    (goes.program_eq executes.shaped).trans executes.tracks.program_eq
  have reached : (made.after commands).step.interpreter.machine =
      chooseNext (before.jump (index + 1)) (.ok ()) := by
    rw [step_of_executing executing, executeLine_machine, result, left]
  refine ⟨?_, reached, ?_⟩
  · rw [step_of_executing executing]
    simp only [executeLine, result]
  · rw [reached, Reference.firstFrom_eq _ (Program.ofSource_indexed mode source), ← same]
    rfl

/-- After the first line, the label, the number of its line in two bases and the register that
the label was moved into are the same targets, and the second line goes on behind the
declaration. -/
theorem jump_forms_agree_at_end :
    ∃ made : Interpreter,
      create {} (.ofSource .skip "mov $acc end\njmp $acc\nadd 1\n:end\nadd 2") .standard =
        .ok made ∧
      (∀ target ∈ [(⟨.labelArgument "end".toList, 1, 4⟩ : Token), ⟨.integer "4".toList, 1, 4⟩,
          ⟨.binary "1_00".toList, 1, 4⟩, ⟨.register "acc".toList, 1, 4⟩],
        (Operation.jump.behavior [target]).effect (made.after [.step]).focus.machine =
          (.ok (), (made.after [.step]).focus.machine.jump 4)) ∧
      (made.after [.step]).step.result = .ok () ∧
      (made.after [.step]).step.interpreter.machine.flow.next = some 4 := by
  obtain ⟨made, accepted, tested⟩ := exists_create_of_any {}
    (.ofSource .skip "mov $acc end\njmp $acc\nadd 1\n:end\nadd 2") .standard
    (fun made =>
      (made.after [.step]).phase == .executing &&
      (made.after [.step]).machine.flow.next == some 1 &&
      decide ((made.after [.step]).focus.machine.registers.get? "acc" = some 4))
    (by decide +kernel)
  simp only [Bool.and_eq_true, beq_iff_eq, decide_eq_true_eq] at tested
  obtain ⟨⟨executing, next⟩, holds⟩ := tested
  have declaration : ((Program.ofSource .skip
      "mov $acc end\njmp $acc\nadd 1\n:end\nadd 2").lines[3]?).map Line.labelName? =
        some (some "end") := by decide +kernel
  have jump : ((Program.ofSource .skip
      "mov $acc end\njmp $acc\nadd 1\n:end\nadd 2").lines[1]?).map (fun line =>
        (line.instructionName?, line.arguments)) =
      some (some "jmp", [⟨.register "acc".toList, 1, 4⟩]) := by decide +kernel
  obtain ⟨line, place, declares⟩ := Option.map_eq_some_iff.mp declaration
  obtain ⟨second, found, reads⟩ := Option.map_eq_some_iff.mp jump
  obtain ⟨instruction, given⟩ := Prod.mk.inj reads
  obtain ⟨agree, session⟩ :=
    jump_forms_agree {} .skip _ made accepted 3 line place "end" declares
  have register : (⟨.register "acc".toList, 1, 4⟩ : Token).LeadsPast
      (made.after [.step]).focus.machine "end" 3 := .register _ 4 rfl holds rfl
  obtain ⟨succeeds, _machine, reached⟩ := session [.step] _ _
    ⟨executing, 1, second, .jump, [], next, found, instruction, given, .jump⟩ register
  refine ⟨made, accepted, ?_, succeeds, reached.trans (by decide +kernel)⟩
  intro target listed
  apply (agree _ (made.passes_focus [.step] executing)).goes target .jump [] _ _ .jump
  simp only [List.mem_cons, List.not_mem_nil, or_false] at listed
  rcases listed with rfl | rfl | rfl | rfl
  · exact .label rfl
  · exact .constant 10 _ rfl (by decide) (by decide)
  · exact .constant 2 _ rfl (by decide) (by decide)
  · exact register

end Interpreter

end PinMachine
