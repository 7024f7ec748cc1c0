import PinMachine.Proofs.Catalog.Requests
import PinMachine.Proofs.Interpreter.Lockstep

/-!
Machines of a small and of a larger configuration side by side. The wide machine holds in
the registers and pins of the narrow one what that one holds, and zero everywhere else; the
frames of its calls have saved the same words, and zeros behind them. Requests about what
the narrow machine has are answered alike, and keep it so, as long as the narrow machine
has room for its calls.
-/

namespace PinMachine

variable {small large : Config}

namespace RegisterBank

/-- Two banks with the same words in the registers of the small configuration, and zeros in
all others. -/
structure Grows (small large : Config) (narrow wide : RegisterBank) : Prop where
  narrow_fits : narrow.Fits small
  wide_fits : wide.Fits large
  same : ∀ name ∈ small.registerNames, wide.get? name = narrow.get? name
  extra : ∀ name ∈ large.registerNames, name ∉ small.registerNames → wide.get? name = some 0

variable {narrow wide : RegisterBank}

theorem grows_ofConfig (within : small.Within large) :
    (ofConfig small).Grows small large (ofConfig large) where
  narrow_fits := ofConfig_fits small
  wide_fits := ofConfig_fits large
  same := by
    intro name known
    rw [get?_ofConfig small name known,
      get?_ofConfig large name (within.mem_registerNames name known)]
  extra := fun name known _outside => get?_ofConfig large name known

theorem Grows.get (grows : narrow.Grows small large wide) (name : String)
    (known : name ∈ small.registerNames) : narrow.get name = wide.get name := by
  unfold RegisterBank.get
  rw [grows.same name known]

theorem Grows.write (grows : narrow.Grows small large wide) (within : small.Within large)
    (name : String) (value : Word) (known : name ∈ small.registerNames) :
    (narrow.write name value).Grows small large (wide.write name value) := by
  have inNarrow : name ∈ narrow.names := by
    rw [grows.narrow_fits.names_eq]
    exact known
  have inWide : name ∈ wide.names := by
    rw [grows.wide_fits.names_eq]
    exact within.mem_registerNames name known
  constructor
  · exact grows.narrow_fits.write name value
  · exact grows.wide_fits.write name value
  · intro other otherKnown
    rw [narrow.get?_write name other value inNarrow, wide.get?_write name other value inWide,
      grows.same other otherKnown]
  · intro other otherKnown outside
    have apart : other ≠ name := by
      rintro rfl
      exact outside known
    rw [wide.get?_write name other value inWide, if_neg apart]
    exact grows.extra other otherKnown outside

theorem Grows.clearStack (grows : narrow.Grows small large wide) (within : small.Within large) :
    narrow.clearStack.Grows small large wide.clearStack := by
  constructor
  · exact grows.narrow_fits.clearStack
  · exact grows.wide_fits.clearStack
  · intro name known
    rw [grows.wide_fits.get?_clearStack within.large_valid,
      grows.narrow_fits.get?_clearStack within.small_valid]
    simp only [within.mem_stack_iff name known, grows.same name known]
  · intro name known outside
    rw [grows.wide_fits.get?_clearStack within.large_valid, grows.extra name known outside,
      ite_self]

/-- The words to save are those of the small configuration, and zeros behind them. -/
theorem Grows.stackWords (grows : narrow.Grows small large wide) (within : small.Within large) :
    wide.stackWords =
      narrow.stackWords ++ List.replicate (large.stackRegisters - small.stackRegisters) 0 := by
  obtain ⟨extra, split, count⟩ := within.exists_extra
  have distinct := large.stackRegisterNames_nodup
  rw [split] at distinct
  rw [grows.wide_fits.stackWords_eq within.large_valid,
    grows.narrow_fits.stackWords_eq within.small_valid, split, List.map_append]
  -- Names that only the large configuration saves are no registers of the small one.
  congr 1
  · apply List.map_congr_left
    intro name saved
    rw [grows.same name (List.mem_append_right _ saved)]
  · rw [← count, List.eq_replicate_iff]
    refine ⟨List.length_map _, ?_⟩
    intro word listed
    obtain ⟨name, added, rfl⟩ := List.mem_map.mp listed
    have saved : name ∈ large.stackRegisterNames := by
      rw [split]
      exact List.mem_append_right _ added
    have outside : name ∉ small.registerNames := by
      intro known
      have alreadySaved := (within.mem_stack_iff name known).mp saved
      exact List.disjoint_of_nodup_append distinct alreadySaved added
    rw [grows.extra name (List.mem_append_right _ saved) outside]
    rfl

private theorem zip_replicate_zero (names : List String) :
    names.zip (List.replicate names.length 0) = zeros names := by
  induction names with
  | nil => rfl
  | cons name rest ih =>
      rw [List.length_cons, List.replicate_succ, List.zip_cons_cons, ih]
      rfl

theorem lookup_saved (within : small.Within large) (saved : List Word)
    (width : saved.length = small.stackRegisters) (name : String)
    (member : name ∈ large.stackRegisterNames) :
    (large.stackRegisterNames.zip
      (saved ++ List.replicate (large.stackRegisters - small.stackRegisters) 0)).lookup name =
        if name ∈ small.stackRegisterNames then
          (small.stackRegisterNames.zip saved).lookup name
        else some 0 := by
  obtain ⟨extra, split, count⟩ := within.exists_extra
  have lengths : small.stackRegisterNames.length = saved.length :=
    Config.stackRegisterNames_length.trans width.symm
  have names : (small.stackRegisterNames.zip saved).map Prod.fst = small.stackRegisterNames :=
    List.map_fst_zip (Nat.le_of_eq lengths)
  rw [split] at member ⊢
  rw [← count, List.zip_append lengths, zip_replicate_zero, List.lookup_append]
  by_cases kept : name ∈ small.stackRegisterNames
  · have held : ((small.stackRegisterNames.zip saved).lookup name).isSome = true := by
      rw [lookup_isSome, names]
      exact kept
    obtain ⟨word, found⟩ := Option.isSome_iff_exists.mp held
    rw [if_pos kept, found]
    rfl
  · have missing : (small.stackRegisterNames.zip saved).lookup name = none := by
      rw [← Option.not_isSome_iff_eq_none, lookup_isSome, names]
      exact kept
    have added : name ∈ extra := (List.mem_append.mp member).resolve_left kept
    rw [if_neg kept, missing, Option.none_or, lookup_zeros, if_pos added]

theorem Grows.restoreStack (grows : narrow.Grows small large wide) (within : small.Within large)
    (saved : List Word) (width : saved.length = small.stackRegisters) :
    (narrow.restoreStack saved).Grows small large
      (wide.restoreStack
        (saved ++ List.replicate (large.stackRegisters - small.stackRegisters) 0)) := by
  have stack := within.stack
  have wideWidth : (saved ++ List.replicate (large.stackRegisters - small.stackRegisters)
      (0 : Word)).length = large.stackRegisters := by
    rw [List.length_append, List.length_replicate]
    omega
  constructor
  · exact grows.narrow_fits.restoreStack saved width
  · exact grows.wide_fits.restoreStack _ wideWidth
  · intro name known
    have kept := within.mem_stack_iff name known
    rw [grows.wide_fits.get?_restoreStack within.large_valid _ wideWidth,
      grows.narrow_fits.get?_restoreStack within.small_valid saved width]
    by_cases member : name ∈ large.stackRegisterNames
    · rw [if_pos member, if_pos (kept.mp member), lookup_saved within saved width name member,
        if_pos (kept.mp member)]
    · rw [if_neg member, if_neg fun saved => member (kept.mpr saved)]
      exact grows.same name known
  · intro name known outside
    rw [grows.wide_fits.get?_restoreStack within.large_valid _ wideWidth]
    by_cases member : name ∈ large.stackRegisterNames
    · have fresh : name ∉ small.stackRegisterNames :=
        fun saved => outside (List.mem_append_right _ saved)
      rw [if_pos member, lookup_saved within saved width name member, if_neg fresh]
    · rw [if_neg member]
      exact grows.extra name known outside

end RegisterBank

/-! ### Pins -/

namespace Pins

/-- Two sets of pins with the same bits on the pins of the small configuration, all other
pins being off. -/
structure Grows (small large : Config) (narrow wide : Pins) : Prop where
  narrow_wide : narrow.Wide small.pins
  inputs : wide.inputs = narrow.inputs ++ List.replicate (large.pins - small.pins) false
  outputs : wide.outputs = narrow.outputs ++ List.replicate (large.pins - small.pins) false

variable {narrow wide : Pins}

theorem grows_off (within : small.Within large) :
    (off small.pins).Grows small large (off large.pins) := by
  have split : List.replicate large.pins false =
      List.replicate small.pins false ++ List.replicate (large.pins - small.pins) false := by
    rw [← List.replicate_add, Nat.add_sub_cancel' within.pins]
  exact ⟨off_wide small.pins, split, split⟩

theorem Grows.lt_count (grows : narrow.Grows small large wide) (index : Nat)
    (inside : index < small.pins) : index < narrow.count ∧ index < wide.count := by
  have narrowCount : narrow.count = small.pins := grows.narrow_wide.inputs
  have wideCount : wide.count = narrow.count + (large.pins - small.pins) := by
    unfold count
    rw [grows.inputs, List.length_append, List.length_replicate]
  omega

theorem Grows.writeRange (grows : narrow.Grows small large wide) (range : PinRange)
    (bits : List Bool) (fits : range.FitsIn small) (width : bits.length = range.count) :
    ∃ narrowWritten wideWritten, narrow.writeRange range bits = .ok narrowWritten ∧
      wide.writeRange range bits = .ok wideWritten ∧
      narrowWritten.Grows small large wideWritten := by
  obtain ⟨forward, inside⟩ := fits
  obtain ⟨inNarrow, inWide⟩ := grows.lt_count range.last inside
  have outputs := grows.narrow_wide.outputs
  have narrowWritten := narrow.writeRange_eq_ok range bits forward inNarrow width
  refine ⟨_, _, narrowWritten, wide.writeRange_eq_ok range bits forward inWide width, ?_⟩
  refine ⟨grows.narrow_wide.writeRange range bits _ narrowWritten, grows.inputs, ?_⟩
  simp only
  rw [grows.outputs, List.take_append_of_le_length (by omega),
    List.drop_append_of_le_length (by omega)]
  simp only [List.append_assoc]

theorem Grows.readRange (grows : narrow.Grows small large wide) (range : PinRange)
    (fits : range.FitsIn small) : narrow.readRange range = wide.readRange range := by
  obtain ⟨forward, inside⟩ := fits
  obtain ⟨inNarrow, inWide⟩ := grows.lt_count range.last inside
  have lengths : narrow.inputs.length = narrow.outputs.length :=
    grows.narrow_wide.inputs.trans grows.narrow_wide.outputs.symm
  have covered : narrow.values.length = small.pins := by
    unfold values
    rw [List.length_zipWith, lengths, Nat.min_self]
    exact grows.narrow_wide.outputs
  have observed : wide.values = narrow.values ++
      List.zipWith (· || ·) (List.replicate (large.pins - small.pins) false)
        (List.replicate (large.pins - small.pins) false) := by
    unfold values
    rw [grows.inputs, grows.outputs, List.zipWith_append lengths]
  have counted : range.count = range.last + 1 - range.first := rfl
  rw [narrow.readRange_eq_ok range forward inNarrow, wide.readRange_eq_ok range forward inWide,
    observed, List.drop_append_of_le_length (by omega),
    List.take_append_of_le_length (by rw [List.length_drop]; omega)]

/-- The operation is about one of the first so many pins. -/
def Operation.AtPin (count : Nat) : Operation → Prop
  | .setInputs _ | .setOutputs _ => False
  | .setInput index _ | .setOutput index _ => index < count
  | .input index | .output index | .value index => index < count

private theorem bitAt_append (side extra : List Bool) (index : Nat)
    (inside : index < side.length) : bitAt (side ++ extra) index = bitAt side index := by
  unfold bitAt
  rw [List.getElem?_append_left inside]

theorem Grows.operate (grows : narrow.Grows small large wide) (operation : Operation)
    (single : operation.AtPin small.pins) :
    (narrow.operate operation).1 = (wide.operate operation).1 ∧
      (narrow.operate operation).2.Grows small large (wide.operate operation).2 := by
  have kept := grows.narrow_wide.operate operation
  have checked : ∀ index, index < small.pins →
      narrow.checkIndex index = .ok () ∧ wide.checkIndex index = .ok () := by
    intro index inside
    obtain ⟨inNarrow, inWide⟩ := grows.lt_count index inside
    exact ⟨narrow.checkIndex_eq_ok index inNarrow, wide.checkIndex_eq_ok index inWide⟩
  have inputs := grows.narrow_wide.inputs
  have outputs := grows.narrow_wide.outputs
  cases operation with
  | setInputs bits => cases single
  | setOutputs bits => cases single
  | setInput index bit =>
      have inside : index < narrow.inputs.length := Nat.lt_of_lt_of_eq single inputs.symm
      simp only [Pins.operate, setInput, checked index single] at kept ⊢
      refine ⟨rfl, kept, ?_, grows.outputs⟩
      change wide.inputs.set index bit = _
      rw [grows.inputs, List.set_append_left _ _ inside]
      rfl
  | setOutput index bit =>
      have inside : index < narrow.outputs.length := Nat.lt_of_lt_of_eq single outputs.symm
      simp only [Pins.operate, setOutput, checked index single] at kept ⊢
      refine ⟨rfl, kept, grows.inputs, ?_⟩
      change wide.outputs.set index bit = _
      rw [grows.outputs, List.set_append_left _ _ inside]
      rfl
  | input index =>
      simp only [Pins.operate, input, checked index single]
      rw [grows.inputs, bitAt_append _ _ index (Nat.lt_of_lt_of_eq single inputs.symm)]
      exact ⟨rfl, grows⟩
  | output index =>
      simp only [Pins.operate, output, checked index single]
      rw [grows.outputs, bitAt_append _ _ index (Nat.lt_of_lt_of_eq single outputs.symm)]
      exact ⟨rfl, grows⟩
  | value index =>
      simp only [Pins.operate, value, checked index single]
      rw [grows.inputs, grows.outputs,
        bitAt_append _ _ index (Nat.lt_of_lt_of_eq single inputs.symm),
        bitAt_append _ _ index (Nat.lt_of_lt_of_eq single outputs.symm)]
      exact ⟨rfl, grows⟩

end Pins

/-! ### Machines -/

/-- The wide frame has saved the same words, and zeros behind them. -/
structure Frame.Grows (small large : Config) (narrow wide : Frame) : Prop where
  returnAddress : narrow.returnAddress = wide.returnAddress
  saved : wide.saved =
    narrow.saved ++ List.replicate (large.stackRegisters - small.stackRegisters) 0

namespace Machine

/-- Two machines in the same state as far as the small configuration goes, with zeros in
all that the large one has besides. -/
structure Grows (small large : Config) (narrow wide : Machine) : Prop where
  narrow_shaped : narrow.Shaped small
  wide_shaped : wide.Shaped large
  program : narrow.program = wide.program
  flow : narrow.flow = wide.flow
  registers : narrow.registers.Grows small large wide.registers
  pins : narrow.pins.Grows small large wide.pins
  frames : List.Forall₂ (Frame.Grows small large) narrow.stack.frames wide.stack.frames

variable {narrow wide : Machine}

theorem grows_start (within : small.Within large) (program : Program) :
    (start small program).Grows small large (start large program) where
  narrow_shaped := start_shaped small program
  wide_shaped := start_shaped large program
  program := rfl
  flow := rfl
  registers := RegisterBank.grows_ofConfig within
  pins := Pins.grows_off within
  frames := .nil

theorem grows_sharesFlow : SharesFlow (Grows small large) where
  program := fun grows => Program.agrees_of_eq grows.program
  flow := fun grows => grows.flow
  reflow := fun grows _flow =>
    { grows with
      narrow_shaped := { grows.narrow_shaped with }
      wide_shaped := { grows.wide_shaped with }
      flow := rfl }

theorem Grows.setRegister (grows : narrow.Grows small large wide) (within : small.Within large)
    (name : String) (value : Word) (known : name ∈ small.registerNames) :
    ServesAlike (Grows small large) narrow wide (.setRegister name value) := by
  have inNarrow := grows.narrow_shaped.mem_names name known
  have inWide := grows.wide_shaped.mem_names name (within.mem_registerNames name known)
  simp only [ServesAlike, serve, narrow.setRegister_eq_write name value inNarrow,
    wide.setRegister_eq_write name value inWide, true_and]
  exact
    { grows with
      narrow_shaped := grows.narrow_shaped.write name value
      wide_shaped := grows.wide_shaped.write name value
      registers := grows.registers.write within name value known }

theorem Grows.setPins (grows : narrow.Grows small large wide) (range : PinRange)
    (bits : List Bool) (fits : range.FitsIn small) (width : bits.length = range.count) :
    ServesAlike (Grows small large) narrow wide (.setPins range bits) := by
  obtain ⟨narrowPins, widePins, narrowWritten, wideWritten, written⟩ :=
    grows.pins.writeRange range bits fits width
  simp only [ServesAlike, serve, Machine.setPins, narrowWritten, wideWritten, true_and]
  exact
    { grows with
      narrow_shaped := { grows.narrow_shaped with pins := written.narrow_wide }
      wide_shaped := { grows.wide_shaped with
        pins := grows.wide_shaped.pins.writeRange range bits _ wideWritten }
      pins := written }

theorem Grows.room (grows : narrow.Grows small large wide) (within : small.Within large)
    (room : 0 < narrow.stack.room) : 0 < wide.stack.room := by
  have narrowLimit := grows.narrow_shaped.limit
  have wideLimit := grows.wide_shaped.limit
  have depth := grows.frames.length_eq
  have limits := within.depth
  unfold CallStack.limit CallStack.depth at narrowLimit wideLimit
  omega

theorem Grows.opened (grows : narrow.Grows small large wide) (within : small.Within large)
    (room : 0 < narrow.stack.room) :
    narrow.opened.Grows small large wide.opened where
  narrow_shaped := grows.narrow_shaped.opened room
  wide_shaped := grows.wide_shaped.opened (grows.room within room)
  program := grows.program
  flow := grows.flow
  registers := by
    unfold Machine.opened
    rw [grows.flow]
    apply (grows.registers.clearStack within).write within
    exact mem_registerNames_of_builtin small _ (by decide)
  pins := grows.pins
  frames := by
    refine .cons ⟨congrArg (·.current + 1) grows.flow, ?_⟩ grows.frames
    exact grows.registers.stackWords within

theorem Grows.closed (grows : narrow.Grows small large wide) (within : small.Within large)
    (frame wideFrame : Frame) (older wideOlder : List Frame)
    (frames : narrow.stack.frames = frame :: older)
    (wideFrames : wide.stack.frames = wideFrame :: wideOlder) :
    (narrow.closed frame older).Grows small large (wide.closed wideFrame wideOlder) := by
  have paired := grows.frames
  rw [frames, wideFrames] at paired
  obtain ⟨latest, others⟩ := List.forall₂_cons.mp paired
  have width : frame.saved.length = small.stackRegisters := by
    apply grows.narrow_shaped.saved
    rw [frames]
    exact List.mem_cons_self
  refine
    { narrow_shaped := grows.narrow_shaped.closed frame older frames
      wide_shaped := grows.wide_shaped.closed wideFrame wideOlder wideFrames
      program := grows.program
      flow := grows.flow
      registers := ?_
      pins := grows.pins
      frames := others }
  unfold Machine.closed
  rw [latest.saved, latest.returnAddress]
  apply (grows.registers.restoreStack within frame.saved width).write within
  exact mem_registerNames_of_builtin small _ (by decide)

/-- Calls are opened alike unless the narrow machine has no room. -/
theorem Grows.pushFrame (grows : narrow.Grows small large wide) (within : small.Within large)
    (roomy : ∀ limit, narrow.pushFrame.1 ≠ .error (.stackOverflow limit)) :
    ServesAlike (Grows small large) narrow wide .pushFrame := by
  have opening := grows.narrow_shaped.opening
  simp only [ServesAlike, serve]
  generalize pushed : narrow.pushFrame = result at opening roomy
  cases opening with
  | opened address room =>
      have wideAddress := address
      rw [grows.flow] at wideAddress
      rw [grows.wide_shaped.pushFrame_eq wideAddress (grows.room within room)]
      exact ⟨rfl, grows.opened within room⟩
  | full address full => exact False.elim (roomy _ rfl)
  | tooFar address =>
      have wideAddress := address
      rw [grows.flow] at wideAddress
      rw [wide.pushFrame_of_address wideAddress, grows.flow]
      exact ⟨rfl, grows⟩

theorem Grows.popFrame (grows : narrow.Grows small large wide) (within : small.Within large) :
    ServesAlike (Grows small large) narrow wide .popFrame := by
  simp only [ServesAlike, serve]
  have paired := grows.frames
  cases frames : narrow.stack.frames with
  | nil =>
      rw [frames, List.forall₂_nil_left_iff] at paired
      rw [narrow.popFrame_of_empty frames, wide.popFrame_of_empty paired]
      exact ⟨rfl, grows⟩
  | cons frame older =>
      rw [frames, List.forall₂_cons_left_iff] at paired
      obtain ⟨wideFrame, wideOlder, latest, _others, wideFrames⟩ := paired
      rw [grows.narrow_shaped.popFrame_eq frame older frames,
        grows.wide_shaped.popFrame_eq wideFrame wideOlder wideFrames]
      exact ⟨congrArg Except.ok latest.returnAddress, grows.closed within
        frame wideFrame older wideOlder frames wideFrames⟩

theorem Grows.serve (grows : narrow.Grows small large wide) (within : small.Within large)
    {operation : Operation} (request : Request) (asks : operation.Asks small request)
    (notCall : operation ≠ .call) :
    ServesAlike (Grows small large) narrow wide request := by
  cases request with
  | pushFrame => exact False.elim (notCall asks)
  | popFrame => exact grows.popFrame within
  | register name => exact ⟨grows.registers.get name asks, grows⟩
  | setRegister name value => exact grows.setRegister within name value asks
  | setPins range bits => exact grows.setPins range bits asks.1 asks.2
  | pins range => exact ⟨grows.pins.readRange range asks.2, grows⟩
  | _ => exact grows_sharesFlow.servesAlike grows _ rfl

end Machine

end PinMachine
