import PinMachine.Host.Script
import PinMachine.Proofs.Interpreter.Calls

/-!
Requests that fail. Opening a call reads and clears the saved registers, closing one writes
them back, and each of these registers is found by its name; a name that the bank does not
have would stop either of them with some registers changed and others not. Here both are
given register by register, so that they can stop halfway, and are shown to be the
operations of the machine wherever a session can get. So every request that fails leaves
the machine as it was.
-/

namespace PinMachine

variable {config : Config} {machine : Machine}

/-- Gives registers new values in order. The first name that is not there stops it, with
the registers before it already written. -/
def Machine.setEach (machine : Machine) : List (String × Word) → Except Fault Unit × Machine
  | [] => (.ok (), machine)
  | (name, value) :: rest =>
      match machine.setRegister name value with
      | (.ok _, written) => written.setEach rest
      | (.error fault, stopped) => (.error fault, stopped)

/-- Opens a call: reads the named registers, notes the frame, and then sets the named
registers to zero and the address register to the address, one after the other. -/
def Machine.pushFrameByName (names : List String) (machine : Machine) :
    Except Fault Unit × Machine :=
  match names.mapM machine.registers.get with
  | .error fault => (.error fault, machine)
  | .ok saved =>
      let address := machine.flow.current + 1
      if maxWord < address then (.error (.addressOutOfRange address), machine)
      else
        match machine.stack.push ⟨saved, address⟩ with
        | .error fault => (.error fault, machine)
        | .ok stack =>
            Machine.setEach { machine with stack := stack }
              (names.map (fun name => (name, 0)) ++
                [(returnAddressRegister, BitVec.ofNat 16 address)])

/-- Closes a call: drops its frame, and then writes the saved words and the address back,
one after the other. -/
def Machine.popFrameByName (names : List String) (machine : Machine) :
    Except Fault Nat × Machine :=
  match machine.stack.pop with
  | .error fault => (.error fault, machine)
  | .ok (frame, stack) =>
      match Machine.setEach { machine with stack := stack }
        (names.zip frame.saved ++
          [(returnAddressRegister, BitVec.ofNat 16 frame.returnAddress)]) with
      | (.ok _, restored) => (.ok frame.returnAddress, restored)
      | (.error fault, stopped) => (.error fault, stopped)

namespace RegisterBank

variable {bank : RegisterBank}

def writeEach (bank : RegisterBank) (cells : List (String × Word)) : RegisterBank :=
  cells.foldl (fun written cell => written.write cell.1 cell.2) bank

private theorem map_overwrite_of_not_mem (name : String) (value : Word)
    (cells : List (String × Word)) (absent : name ∉ cells.map Prod.fst) :
    cells.map (overwrite name value) = cells := by
  induction cells with
  | nil => rfl
  | cons cell rest ih =>
      rw [List.map_cons, List.mem_cons, not_or] at absent
      rw [List.map_cons, ih absent.2]
      unfold overwrite
      rw [if_neg fun same => absent.1 same.symm]

/-- Writing the last cells of the saved registers in order replaces them, if their names
differ from each other and from those of the other registers. -/
theorem writeEach_stack (general written rest cells : List (String × Word))
    (apart : ∀ cell ∈ cells, cell.1 ∉ general.map Prod.fst)
    (distinct : (written ++ cells).map Prod.fst |>.Nodup)
    (named : rest.map Prod.fst = cells.map Prod.fst) :
    writeEach ⟨general, written ++ rest⟩ cells = ⟨general, written ++ cells⟩ := by
  -- The cells already written move over to the front.
  induction cells generalizing written rest with
  | nil =>
      rw [List.map_nil, List.map_eq_nil_iff] at named
      rw [named]
      rfl
  | cons cell cells ih =>
      obtain ⟨old, others, rfl⟩ : ∃ old others, rest = old :: others := by
        cases rest with
        | nil => cases named
        | cons old others => exact ⟨old, others, rfl⟩
      rw [List.map_cons, List.map_cons, List.cons.injEq] at named
      rw [List.map_append, List.map_cons, List.nodup_append] at distinct
      have fresh := List.nodup_cons.mp distinct.2.1
      have first : (RegisterBank.mk general (written ++ old :: others)).write cell.1 cell.2 =
          ⟨general, (written ++ [cell]) ++ others⟩ := by
        unfold write
        rw [map_overwrite_of_not_mem _ _ general (apart cell List.mem_cons_self),
          List.map_append, List.map_cons, map_overwrite_of_not_mem _ _ written,
          map_overwrite_of_not_mem _ _ others, overwrite, if_pos named.1, List.append_assoc]
        · rfl
        · rw [named.2]
          exact fresh.1
        · intro member
          exact distinct.2.2 _ member _ List.mem_cons_self rfl
      change writeEach ((RegisterBank.mk general (written ++ old :: others)).write cell.1 cell.2)
        cells = _
      rw [first, ih _ others (fun other member => apart other (List.mem_cons_of_mem _ member)) _
        named.2, List.append_assoc]
      · rfl
      · rw [List.append_assoc, List.map_append]
        exact List.nodup_append.mpr distinct

theorem Fits.writeEach (fits : bank.Fits config) (valid : config.Valid)
    (cells : List (String × Word)) (named : cells.map Prod.fst = config.stackRegisterNames) :
    bank.writeEach cells = { bank with stack := cells } := by
  have apart : ∀ cell ∈ cells, cell.1 ∉ bank.general.map Prod.fst := by
    intro cell member
    rw [fits.general]
    apply valid.not_mem_general_of_mem_stack
    rw [← named]
    exact List.mem_map_of_mem member
  have distinct : (([] ++ cells).map Prod.fst).Nodup := by
    rw [List.nil_append, named]
    exact config.stackRegisterNames_nodup
  exact writeEach_stack bank.general [] bank.stack cells apart distinct
    (fits.stack.trans named.symm)

theorem Fits.mapM_get (fits : bank.Fits config) (names : List String)
    (known : ∀ name ∈ names, name ∈ config.registerNames) :
    names.mapM bank.get = .ok (names.map fun name => (bank.get? name).getD 0) := by
  induction names with
  | nil => rfl
  | cons name rest ih =>
      obtain ⟨value, found⟩ := fits.exists_get? name (known name List.mem_cons_self)
      have read : bank.get name = .ok value := (bank.get_eq_ok_iff name value).mpr found
      rw [List.mapM_cons, read, ih fun other member => known other (List.mem_cons_of_mem _ member),
        List.map_cons, found]
      rfl

end RegisterBank

namespace Machine

theorem setEach_eq (machine : Machine) (fits : machine.registers.Fits config)
    (cells : List (String × Word)) (known : ∀ cell ∈ cells, cell.1 ∈ config.registerNames) :
    machine.setEach cells =
      (.ok (), { machine with registers := machine.registers.writeEach cells }) := by
  induction cells generalizing machine with
  | nil => rfl
  | cons cell rest ih =>
      have found : cell.1 ∈ machine.registers.names := by
        rw [fits.names_eq]
        exact known cell List.mem_cons_self
      have written := machine.setRegister_eq_write cell.1 cell.2 found
      have later : ∀ other ∈ rest, other.1 ∈ config.registerNames :=
        fun other member => known other (List.mem_cons_of_mem _ member)
      simp only [setEach, written]
      exact ih (machine.write cell.1 cell.2) (fits.write cell.1 cell.2) later

theorem setEach_call (machine : Machine) (fits : machine.registers.Fits config)
    (valid : config.Valid) (cells : List (String × Word))
    (named : cells.map Prod.fst = config.stackRegisterNames) (address : Word) :
    machine.setEach (cells ++ [(returnAddressRegister, address)]) =
      (.ok (), { machine with
        registers := RegisterBank.write { machine.registers with stack := cells }
          returnAddressRegister address }) := by
  have known : ∀ cell ∈ cells ++ [(returnAddressRegister, address)],
      cell.1 ∈ config.registerNames := by
    intro cell member
    rcases List.mem_append.mp member with saved | last
    · apply List.mem_append_right
      rw [← named]
      exact List.mem_map_of_mem saved
    · obtain rfl := List.mem_singleton.mp last
      exact mem_registerNames_of_builtin config returnAddressRegister (by decide)
  have ordered : machine.registers.writeEach (cells ++ [(returnAddressRegister, address)]) =
      (machine.registers.writeEach cells).write returnAddressRegister address :=
    List.foldl_append
  rw [machine.setEach_eq fits _ known, ordered, fits.writeEach valid cells named]

theorem Shaped.pushFrame_eq_byName (shaped : machine.Shaped config) (valid : config.Valid) :
    machine.pushFrame = machine.pushFrameByName config.stackRegisterNames := by
  have saved : config.stackRegisterNames.mapM machine.registers.get =
      .ok machine.registers.stackWords := by
    rw [shaped.registers.mapM_get, shaped.registers.stackWords_eq valid]
    intro name member
    exact List.mem_append_right _ member
  unfold pushFrameByName
  rw [saved]
  by_cases tooFar : maxWord < machine.flow.current + 1
  · rw [machine.pushFrame_of_address tooFar]
    simp only [tooFar, if_true]
  · have address := Nat.not_lt.mp tooFar
    simp only [tooFar, if_false]
    cases room : machine.stack.room with
    | zero =>
        rw [machine.pushFrame_of_full address room]
        simp only [CallStack.push, room]
    | succ left =>
        have cleared := setEach_call
          { machine with stack := ⟨machine.callFrame :: machine.stack.frames, left⟩ }
          shaped.registers valid (RegisterBank.zeros config.stackRegisterNames)
          (RegisterBank.map_fst_zeros _) (BitVec.ofNat 16 (machine.flow.current + 1))
        rw [shaped.pushFrame_eq address (by omega)]
        simp only [CallStack.push, room]
        refine Eq.trans ?_ cleared.symm
        unfold Machine.opened RegisterBank.clearStack
        rw [shaped.registers.stack, room]
        rfl

theorem Shaped.popFrame_eq_byName (shaped : machine.Shaped config) (valid : config.Valid) :
    machine.popFrame = machine.popFrameByName config.stackRegisterNames := by
  unfold popFrameByName
  cases frames : machine.stack.frames with
  | nil =>
      rw [machine.popFrame_of_empty frames]
      simp only [CallStack.pop, frames]
  | cons frame older =>
      have width : frame.saved.length = config.stackRegisters := by
        apply shaped.saved
        rw [frames]
        exact List.mem_cons_self
      have named : (config.stackRegisterNames.zip frame.saved).map Prod.fst =
          config.stackRegisterNames := by
        apply List.map_fst_zip
        exact Nat.le_of_eq (Config.stackRegisterNames_length.trans width.symm)
      have restored := setEach_call
        { machine with stack := ⟨older, machine.stack.room + 1⟩ }
        shaped.registers valid _ named (BitVec.ofNat 16 frame.returnAddress)
      rw [shaped.popFrame_eq frame older frames]
      simp only [CallStack.pop, frames, restored]
      unfold Machine.closed RegisterBank.restoreStack
      rw [shaped.registers.stack]

/-! ### Requests -/

theorem Shaped.serve_of_error (shaped : machine.Shaped config) (request : Request)
    (fault : Fault) (fails : request.reply (machine.serve request).1 = .error fault) :
    (machine.serve request).2 = machine := by
  cases request with
  | currentLine => rfl
  | pushFrame =>
      have opening := shaped.opening
      change machine.pushFrame.2 = machine
      change machine.pushFrame.1.map (fun _ => Datum.nothing) = .error fault at fails
      generalize machine.pushFrame = result at opening fails
      cases opening with
      | opened address room => cases fails
      | full address full => rfl
      | tooFar address => rfl
  | popFrame =>
      change machine.popFrame.2 = machine
      change machine.popFrame.1.map Datum.number = .error fault at fails
      cases frames : machine.stack.frames with
      | nil => rw [machine.popFrame_of_empty frames]
      | cons frame older =>
          rw [shaped.popFrame_eq frame older frames] at fails
          cases fails
  | jump address => cases fails
  | jumpToLabel label => cases fails
  | sleep steps => cases fails
  | labelAddress label => rfl
  | register name => rfl
  | setRegister name value =>
      change (machine.setRegister name value).2 = machine
      change (machine.setRegister name value).1.map (fun _ => Datum.nothing) = .error fault
        at fails
      by_cases known : name ∈ machine.registers.names
      · rw [machine.setRegister_eq_write name value known] at fails
        cases fails
      · rw [machine.setRegister_eq_error name value known]
  | setPins range bits =>
      change (machine.setPins range bits).2 = machine
      change (machine.setPins range bits).1.map (fun _ => Datum.nothing) = .error fault at fails
      unfold setPins at fails ⊢
      cases written : machine.pins.writeRange range bits with
      | ok pins =>
          rw [written] at fails
          cases fails
      | error raised => rfl
  | pins range => rfl

theorem Shaped.popFrame_eq_error_iff (shaped : machine.Shaped config) (fault : Fault) :
    machine.popFrame.1 = .error fault ↔
      machine.stack.frames = [] ∧ fault = .stackUnderflow := by
  cases frames : machine.stack.frames with
  | nil =>
      rw [machine.popFrame_of_empty frames]
      constructor
      · intro fails
        exact ⟨rfl, (Except.error.inj fails).symm⟩
      · rintro ⟨_empty, rfl⟩
        rfl
  | cons frame older =>
      rw [shaped.popFrame_eq frame older frames]
      constructor
      · intro fails
        cases fails
      · rintro ⟨some_call, _fault⟩
        cases some_call

/-- Whatever is asked of the machine is done or leaves no trace. -/
structure AllOrNothing (config : Config) (machine : Machine) : Prop where
  request : ∀ request fault, request.reply (machine.serve request).1 = .error fault →
    (machine.serve request).2 = machine
  word : ∀ lexeme fault after,
    (Action.wordOf lexeme).effect machine = (.error fault, after) → after = machine
  /-- A call is refused for its address or for want of room, in this order. -/
  push : ∀ fault, machine.pushFrame.1 = .error fault ↔
    (65535 < machine.flow.current + 1 ∧
      fault = .addressOutOfRange (machine.flow.current + 1)) ∨
    (machine.flow.current + 1 ≤ 65535 ∧ machine.stack.depth = config.stackDepthLimit ∧
      fault = .stackOverflow config.stackDepthLimit)
  /-- A return is refused only if no call is open. -/
  pop : ∀ fault, machine.popFrame.1 = .error fault ↔
    machine.stack.frames = [] ∧ fault = .stackUnderflow
  /-- Taken register by register, neither stops halfway. -/
  push_each : machine.pushFrameByName config.stackRegisterNames = machine.pushFrame
  pop_each : machine.popFrameByName config.stackRegisterNames = machine.popFrame

end Machine

namespace Interpreter

/-- Requests are all or nothing at every machine that a session passes through, under any
catalog, also after requests of the same line that failed. -/
theorem failed_request_changes_nothing (config : Config) (program : Program)
    (catalog : Catalog) (made : Interpreter)
    (accepted : create config program catalog = .ok made) (machine : Machine)
    (passed : made.Passes machine) : machine.AllOrNothing config := by
  have shaped := shaped_of_passes config program catalog made accepted machine passed
  have valid := (create_eq_ok config program catalog made accepted).1
  constructor
  · exact shaped.serve_of_error
  · intro lexeme fault after fails
    rw [Action.effect_wordOf] at fails
    exact (congrArg Prod.snd fails).symm
  · exact shaped.pushFrame_eq_error_iff
  · exact shaped.popFrame_eq_error_iff
  · exact (shaped.pushFrame_eq_byName valid).symm
  · exact (shaped.popFrame_eq_byName valid).symm

/-- An instruction of a host that opens a call, goes on after a second one was refused, and
then writes a saved register. -/
def openingCatalog : Catalog :=
  ⟨[{ name := "host"
      parameters := []
      behavior := hostBehavior
        [[⟨.ask .pushFrame, false⟩, ⟨.ask .pushFrame, true⟩,
          ⟨.ask (.setRegister "s0" 9), false⟩]] }]⟩

/-- At the second line a call is still open and there is no room for another. -/
theorem failed_request_changes_nothing_full :
    ∃ (made : Interpreter) (machine : Machine),
      create { stackRegisterCount := 1, maxStackDepth := 1 } (.ofSource .skip "host\nhost")
        openingCatalog = .ok made ∧
      made.Passes machine ∧
      machine.registers.get? "s0" = some 9 ∧
      machine.pushFrameByName ["s0"] = (.error (.stackOverflow 1), machine) ∧
      machine.AllOrNothing { stackRegisterCount := 1, maxStackDepth := 1 } := by
  obtain ⟨made, accepted, tested⟩ := exists_create_of_any
    { stackRegisterCount := 1, maxStackDepth := 1 } (.ofSource .skip "host\nhost")
    openingCatalog
    (fun made =>
      (made.after [.step]).phase == .executing &&
      (made.after [.step]).focus.machine.registers.get? "s0" == some 9 &&
      (made.after [.step]).focus.machine.flow.current == 1 &&
      (made.after [.step]).focus.machine.stack.depth == 1)
    (by decide +kernel)
  simp only [Bool.and_eq_true, beq_iff_eq] at tested
  obtain ⟨⟨⟨executing, held⟩, line⟩, depth⟩ := tested
  have passed := made.passes_focus [.step] executing
  have whole := failed_request_changes_nothing _ _ _ made accepted _ passed
  have refused := (whole.push (.stackOverflow 1)).mpr
    (Or.inr ⟨by rw [line]; decide, depth, rfl⟩)
  have unchanged := whole.request .pushFrame (.stackOverflow 1) (by
    change (made.after [.step]).focus.machine.pushFrame.1.map _ = _
    rw [refused]
    rfl)
  refine ⟨made, _, accepted, passed, held, ?_, whole⟩
  exact whole.push_each.trans (Prod.ext refused unchanged)

end Interpreter

end PinMachine
