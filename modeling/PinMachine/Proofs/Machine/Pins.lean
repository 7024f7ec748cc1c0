import PinMachine.Machine.Pins

/-!
Widths of the two sides of the pins. No operation of a host and no write of a
program changes how many bits a side has, and a write leaves the input side as it
is. A range is read pin by pin.
-/

namespace PinMachine

/-- The bits of one side at the pins of a range, in order. -/
def PinRange.bitsOf (range : PinRange) (side : List Bool) : List Bool :=
  range.indices.map (Pins.bitAt side)

namespace Pins

/-- Both sides have a number of bits. -/
structure Wide (count : Nat) (pins : Pins) : Prop where
  inputs : pins.inputs.length = count
  outputs : pins.outputs.length = count

variable {count : Nat} {pins : Pins}

theorem off_wide (count : Nat) : (off count).Wide count :=
  ⟨List.length_replicate, List.length_replicate⟩

theorem checkIndex_eq_ok (pins : Pins) (index : Nat) (inside : index < pins.count) :
    pins.checkIndex index = .ok () := by
  unfold checkIndex
  rw [if_pos inside]

theorem checkRange_eq_ok (pins : Pins) (range : PinRange)
    (first : range.first < pins.count) (last : range.last < pins.count) :
    pins.checkRange range = .ok () := by
  unfold checkRange
  rw [pins.checkIndex_eq_ok range.first first]
  exact pins.checkIndex_eq_ok range.last last

theorem lt_count_of_checkIndex (pins : Pins) (index : Nat)
    (checked : pins.checkIndex index = .ok ()) : index < pins.count := by
  unfold checkIndex at checked
  by_cases inside : index < pins.count
  · exact inside
  · rw [if_neg inside] at checked
    cases checked

theorem lt_count_of_checkRange (pins : Pins) (range : PinRange)
    (checked : pins.checkRange range = .ok ()) :
    range.first < pins.count ∧ range.last < pins.count := by
  unfold checkRange at checked
  cases first : pins.checkIndex range.first with
  | error fault =>
      rw [first] at checked
      cases checked
  | ok passed =>
      rw [first] at checked
      exact ⟨pins.lt_count_of_checkIndex _ first, pins.lt_count_of_checkIndex _ checked⟩

/-- A write that succeeds has one bit for each pin of a range inside the pins, and
puts these bits in their places on the output side. -/
theorem writeRange_cases (pins written : Pins) (range : PinRange) (bits : List Bool)
    (succeeds : pins.writeRange range bits = .ok written) :
    range.first < pins.count ∧ range.last < pins.count ∧ bits.length = range.count ∧
      (bits = [] ∧ written = pins ∨
        bits ≠ [] ∧ written = { pins with
          outputs := pins.outputs.take range.first ++ bits ++
            pins.outputs.drop (range.last + 1) }) := by
  unfold writeRange at succeeds
  cases checked : pins.checkRange range with
  | error fault =>
      rw [checked] at succeeds
      cases succeeds
  | ok passed =>
      rw [checked] at succeeds
      obtain ⟨first, last⟩ := pins.lt_count_of_checkRange range checked
      by_cases width : bits.length = range.count
      · refine ⟨first, last, width, ?_⟩
        cases bits with
        | nil =>
            left
            simp [width, bind, Except.bind, pure, Except.pure] at succeeds
            exact ⟨rfl, succeeds.symm⟩
        | cons bit rest =>
            right
            simp [width, bind, Except.bind, pure, Except.pure] at succeeds
            exact ⟨List.cons_ne_nil _ _, by simpa using succeeds.symm⟩
      · simp [width, bind, Except.bind, throw, throwThe, MonadExceptOf.throw] at succeeds

/-- A range with both ends at pins is written whenever there are as many bits as pins. One
that does not run forward takes no bits and is left as it is. -/
theorem writeRange_of_ends (pins : Pins) (range : PinRange) (bits : List Bool)
    (first : range.first < pins.count) (last : range.last < pins.count)
    (width : bits.length = range.count) :
    pins.writeRange range bits =
      .ok { pins with
        outputs := pins.outputs.take range.first ++ bits ++
          pins.outputs.drop (range.first + bits.length) } := by
  unfold writeRange
  rw [pins.checkRange_eq_ok range first last]
  cases bits with
  | nil => simp [← width, bind, Except.bind, pure, Except.pure]
  | cons bit rest =>
      have covered : range.count = range.last + 1 - range.first := rfl
      have behind : range.first + (bit :: rest).length = range.last + 1 := by
        rw [List.length_cons] at width ⊢
        omega
      rw [behind]
      simp [width, bind, Except.bind, pure, Except.pure]

theorem writeRange_eq_ok (pins : Pins) (range : PinRange) (bits : List Bool)
    (forward : range.first ≤ range.last) (inside : range.last < pins.count)
    (width : bits.length = range.count) :
    pins.writeRange range bits =
      .ok { pins with
        outputs := pins.outputs.take range.first ++ bits ++
          pins.outputs.drop (range.last + 1) } := by
  have covered : range.count = range.last + 1 - range.first := rfl
  have behind : range.last + 1 = range.first + bits.length := by omega
  rw [behind]
  exact pins.writeRange_of_ends range bits (by omega) inside width

theorem readRange_of_ends (pins : Pins) (range : PinRange)
    (first : range.first < pins.count) (last : range.last < pins.count) :
    pins.readRange range = .ok ((pins.values.drop range.first).take range.count) := by
  unfold readRange
  rw [pins.checkRange_eq_ok range first last]
  rfl

theorem readRange_eq_ok (pins : Pins) (range : PinRange)
    (forward : range.first ≤ range.last) (inside : range.last < pins.count) :
    pins.readRange range = .ok ((pins.values.drop range.first).take range.count) :=
  pins.readRange_of_ends range (by omega) inside

theorem Wide.bitAt_values (wide : pins.Wide count) (index : Nat) :
    bitAt pins.values index = (bitAt pins.inputs index || bitAt pins.outputs index) := by
  unfold bitAt values
  rw [List.getElem?_zipWith]
  by_cases inside : index < count
  · rw [List.getElem?_eq_getElem (by rw [wide.inputs]; exact inside),
      List.getElem?_eq_getElem (by rw [wide.outputs]; exact inside)]
    rfl
  · rw [List.getElem?_eq_none (by rw [wide.inputs]; omega),
      List.getElem?_eq_none (by rw [wide.outputs]; omega)]
    rfl

theorem Wide.readRange_eq_bitsOf (wide : pins.Wide count) (range : PinRange)
    (first : range.first < count) (last : range.last < count) :
    pins.readRange range = .ok (range.bitsOf pins.values) := by
  have inputs : pins.count = count := wide.inputs
  rw [pins.readRange_of_ends range (by omega) (by omega)]
  congr 1
  have length : pins.values.length = count := by
    rw [values, List.length_zipWith, wide.inputs, wide.outputs, Nat.min_self]
  have covered : range.count = range.last + 1 - range.first := rfl
  apply List.ext_getElem?
  intro place
  rw [PinRange.bitsOf, PinRange.indices, List.getElem?_map]
  by_cases within : place < range.count
  · rw [List.getElem?_take_of_lt within, List.getElem?_drop, List.getElem?_range' within,
      Option.map_some, Nat.one_mul, bitAt, List.getElem?_eq_getElem (by omega), Option.getD_some]
  · rw [List.getElem?_eq_none (by rw [List.length_take]; omega),
      List.getElem?_eq_none (by rw [List.length_range']; omega)]
    rfl

theorem Wide.writeRange (wide : pins.Wide count) (range : PinRange) (bits : List Bool)
    (written : Pins) (succeeds : pins.writeRange range bits = .ok written) :
    written.Wide count := by
  obtain ⟨first, last, width, unchanged | changed⟩ :=
    pins.writeRange_cases written range bits succeeds
  · rw [unchanged.2]
    exact wide
  · obtain ⟨some_bit, rfl⟩ := changed
    refine ⟨wide.inputs, ?_⟩
    have outputs := wide.outputs
    have inputs : pins.count = count := wide.inputs
    have positive := List.length_pos_iff.mpr some_bit
    have pinsCovered : range.count = range.last + 1 - range.first := rfl
    simp only [List.length_append, List.length_take, List.length_drop]
    omega

theorem length_eq_count_of_checkWidth (pins : Pins) (bits : List Bool)
    (checked : pins.checkWidth bits = .ok ()) : bits.length = pins.count := by
  unfold checkWidth at checked
  by_cases width : bits.length = pins.count
  · exact width
  · rw [if_neg width] at checked
    cases checked

private theorem guarded_eq_ok (check : Except Fault Unit) (next written : Pins)
    (succeeds : (do check; return next) = Except.ok written) :
    check = .ok () ∧ written = next := by
  cases check with
  | error fault => cases succeeds
  | ok passed =>
      cases succeeds
      exact ⟨rfl, rfl⟩

/-- What a host operation can make of the pins. -/
inductive Operated (pins : Pins) : Pins → Prop where
  | unchanged : Operated pins pins
  | inputs (bits : List Bool) (width : bits.length = pins.count) :
      Operated pins { pins with inputs := bits }
  | outputs (bits : List Bool) (width : bits.length = pins.count) :
      Operated pins { pins with outputs := bits }
  | input (index : Nat) (bit : Bool) :
      Operated pins { pins with inputs := pins.inputs.set index bit }
  | output (index : Nat) (bit : Bool) :
      Operated pins { pins with outputs := pins.outputs.set index bit }

private theorem operated_settle (pins : Pins) (result : Except Fault Pins)
    (written : ∀ next, result = .ok next → Operated pins next) :
    Operated pins (pins.settle result).2 := by
  cases result with
  | error fault => exact .unchanged
  | ok next => exact written next rfl

theorem operated (pins : Pins) (operation : Operation) :
    Operated pins (pins.operate operation).2 := by
  cases operation with
  | setInputs bits =>
      apply pins.operated_settle
      intro next succeeds
      obtain ⟨checked, rfl⟩ := guarded_eq_ok _ _ _ succeeds
      exact .inputs bits (pins.length_eq_count_of_checkWidth bits checked)
  | setOutputs bits =>
      apply pins.operated_settle
      intro next succeeds
      obtain ⟨checked, rfl⟩ := guarded_eq_ok _ _ _ succeeds
      exact .outputs bits (pins.length_eq_count_of_checkWidth bits checked)
  | setInput index bit =>
      apply pins.operated_settle
      intro next succeeds
      obtain ⟨_checked, rfl⟩ := guarded_eq_ok _ _ _ succeeds
      exact .input index bit
  | setOutput index bit =>
      apply pins.operated_settle
      intro next succeeds
      obtain ⟨_checked, rfl⟩ := guarded_eq_ok _ _ _ succeeds
      exact .output index bit
  | input index => exact .unchanged
  | output index => exact .unchanged
  | value index => exact .unchanged

theorem Operated.count_eq {after : Pins} (operated : Operated pins after) :
    after.count = pins.count := by
  cases operated with
  | unchanged => rfl
  | inputs bits width => exact width
  | outputs bits width => rfl
  | input index bit => exact List.length_set
  | output index bit => rfl

theorem Wide.operate (wide : pins.Wide count) (operation : Operation) :
    (pins.operate operation).2.Wide count := by
  have operated := pins.operated operation
  refine ⟨operated.count_eq.trans wide.inputs, ?_⟩
  generalize (pins.operate operation).2 = after at operated
  cases operated with
  | unchanged => exact wide.outputs
  | inputs bits width => exact wide.outputs
  | outputs bits width => exact width.trans wide.inputs
  | input index bit => exact wide.outputs
  | output index bit => exact List.length_set.trans wide.outputs

end Pins

end PinMachine
