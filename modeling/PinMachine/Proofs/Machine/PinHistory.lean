import Mathlib.Data.List.Induction
import PinMachine.Proofs.Machine.Pins

/-!
Histories of pins. Writes come to the pins in three ways, to all pins of a side, to one pin
and to a range, each with a check of its own. After any history, with writes that failed in
it, each side is an array that holds for every pin the bit that the last successful write
gave to it. A write to a range is the same as writes to its pins one after the other.
-/

namespace PinMachine

namespace Pins

inductive Side where
  | input
  | output
  deriving DecidableEq, Repr

def side (pins : Pins) : Side → List Bool
  | .input => pins.inputs
  | .output => pins.outputs

def replace (pins : Pins) : Side → List Bool → Pins
  | .input, bits => { pins with inputs := bits }
  | .output, bits => { pins with outputs := bits }

@[simp]
theorem side_replace (pins : Pins) (changed side : Side) (bits : List Bool) :
    (pins.replace changed bits).side side = if changed = side then bits else pins.side side := by
  cases changed <;> cases side <;> rfl

variable {count : Nat} {pins : Pins}

theorem Wide.side (wide : pins.Wide count) (side : Side) : (pins.side side).length = count := by
  cases side with
  | input => exact wide.inputs
  | output => exact wide.outputs

theorem Wide.replace (wide : pins.Wide count) (side : Side) {bits : List Bool}
    (width : bits.length = count) : (pins.replace side bits).Wide count := by
  cases side with
  | input => exact ⟨width, wide.outputs⟩
  | output => exact ⟨wide.inputs, width⟩

/-- What a host or a program can write. A span is a range of pins on the output side. -/
inductive Write where
  | all (side : Side) (bits : List Bool)
  | one (side : Side) (index : Nat) (bit : Bool)
  | span (range : PinRange) (bits : List Bool)
  deriving DecidableEq, Repr

def write (pins : Pins) : Write → Except Fault Pins
  | .all .input bits => pins.setInputs bits
  | .all .output bits => pins.setOutputs bits
  | .one .input index bit => pins.setInput index bit
  | .one .output index bit => pins.setOutput index bit
  | .span range bits => pins.writeRange range bits

/-- The pins after some writes, one after the other. One that fails changes nothing. -/
def after (pins : Pins) (writes : List Write) : Pins :=
  writes.foldl (fun pins write => (pins.settle (pins.write write)).2) pins

namespace Write

def side : Write → Side
  | .all side _ => side
  | .one side _ _ => side
  | .span _ _ => .output

/-- The bit that the write gives to a pin of its side, if the pin is one that it covers. -/
def bit? (index : Nat) : Write → Option Bool
  | .all _ bits => bits[index]?
  | .one _ place bit => if place = index then some bit else none
  | .span range bits => if range.first ≤ index then bits[index - range.first]? else none

/-- The write is about existing pins, and has one bit for each of them. -/
def Fits (count : Nat) : Write → Prop
  | .all _ bits => bits.length = count
  | .one _ index _ => index < count
  | .span range bits =>
      range.first < count ∧ range.last < count ∧ bits.length = range.count

instance (count : Nat) : (write : Write) → Decidable (write.Fits count)
  | .all _ bits => inferInstanceAs (Decidable (bits.length = count))
  | .one _ index _ => inferInstanceAs (Decidable (index < count))
  | .span range bits =>
      inferInstanceAs (Decidable
        (range.first < count ∧ range.last < count ∧ bits.length = range.count))

/-- Why a write fails. The ends of a range are looked at before the number of bits, and the
first end before the last. -/
inductive Refused (count : Nat) : Write → Fault → Prop
  | width (side : Side) (bits : List Bool) (other : bits.length ≠ count) :
      Refused count (.all side bits) (.pinCountMismatch count bits.length)
  | index (side : Side) (index : Nat) (bit : Bool) (outside : count ≤ index) :
      Refused count (.one side index bit) (.pinOutOfRange index count)
  | first (range : PinRange) (bits : List Bool) (outside : count ≤ range.first) :
      Refused count (.span range bits) (.pinOutOfRange range.first count)
  | last (range : PinRange) (bits : List Bool) (inside : range.first < count)
      (outside : count ≤ range.last) :
      Refused count (.span range bits) (.pinOutOfRange range.last count)
  | spanWidth (range : PinRange) (bits : List Bool) (first : range.first < count)
      (last : range.last < count) (other : bits.length ≠ range.count) :
      Refused count (.span range bits) (.pinCountMismatch range.count bits.length)

theorem fits_or_refused (count : Nat) (write : Write) :
    write.Fits count ∨ ∃ fault, write.Refused count fault := by
  cases write with
  | all side bits =>
      by_cases width : bits.length = count
      · exact .inl width
      · exact .inr ⟨_, .width side bits width⟩
  | one side index bit =>
      by_cases inside : index < count
      · exact .inl inside
      · exact .inr ⟨_, .index side index bit (Nat.not_lt.mp inside)⟩
  | span range bits =>
      by_cases first : range.first < count
      · by_cases last : range.last < count
        · by_cases width : bits.length = range.count
          · exact .inl ⟨first, last, width⟩
          · exact .inr ⟨_, .spanWidth range bits first last width⟩
        · exact .inr ⟨_, .last range bits first (Nat.not_lt.mp last)⟩
      · exact .inr ⟨_, .first range bits (Nat.not_lt.mp first)⟩

end Write

/-- The bit of a pin by its history: the last one that a fitting write to its side gave to
it, and off before that. -/
def lastBit (count : Nat) (writes : List Write) (side : Side) (index : Nat) : Bool :=
  ((writes.filter fun write => write.side = side ∧ write.Fits count).filterMap
    (·.bit? index)).getLast?.getD false

/-- The bits of its side that a write leaves. -/
def Write.place (bits : List Bool) : Write → List Bool
  | .all _ others => others
  | .one _ index bit => bits.set index bit
  | .span range part =>
      bits.take range.first ++ part ++ bits.drop (range.first + part.length)

theorem Write.Fits.span_inside {range : PinRange} {bits : List Bool}
    (fits : (Write.span range bits).Fits count) : range.first + bits.length ≤ count := by
  obtain ⟨first, last, width⟩ := fits
  have covered : range.count = range.last + 1 - range.first := rfl
  omega

theorem Write.Fits.length_place {write : Write} {bits : List Bool} (fits : write.Fits count)
    (wide : bits.length = count) : (write.place bits).length = count := by
  cases write with
  | all side others => exact fits
  | one side index bit => exact List.length_set.trans wide
  | span range part =>
      have inside := fits.span_inside
      simp only [Write.place, List.length_append, List.length_take, List.length_drop]
      omega

theorem Write.Fits.bitAt_place {write : Write} {bits : List Bool} (fits : write.Fits count)
    (wide : bits.length = count) (index : Nat) (inside : index < count) :
    bitAt (write.place bits) index = (write.bit? index).getD (bitAt bits index) := by
  subst wide
  unfold bitAt
  cases write with
  | all side others =>
      have width : others.length = bits.length := fits
      rw [place, bit?, List.getElem?_eq_getElem (by omega)]
      rfl
  | one side changed bit =>
      rw [place, bit?, List.getElem?_set]
      by_cases same : changed = index
      · rw [if_pos same, if_pos same, if_pos (same ▸ inside)]
        rfl
      · rw [if_neg same, if_neg same]
        rfl
  | span range part =>
      have within := fits.span_inside
      have front : (bits.take range.first).length = range.first := by
        rw [List.length_take]
        omega
      rw [place, bit?, List.append_assoc]
      by_cases before : index < range.first
      · rw [if_neg (Nat.not_le.mpr before), List.getElem?_append_left (by omega),
          List.getElem?_take_of_lt before]
        rfl
      · rw [if_pos (Nat.not_lt.mp before), List.getElem?_append_right (by omega), front]
        by_cases covered : index - range.first < part.length
        · rw [List.getElem?_append_left covered, List.getElem?_eq_getElem covered]
          rfl
        · rw [List.getElem?_append_right (by omega), List.getElem?_drop,
            List.getElem?_eq_none (Nat.not_lt.mp covered), Option.getD_none]
          congr 2
          omega

theorem write_all (pins : Pins) (side : Side) (bits : List Bool) :
    pins.write (.all side bits) =
      (do pins.checkWidth bits; return pins.replace side bits) := by
  cases side <;> rfl

theorem write_one (pins : Pins) (side : Side) (index : Nat) (bit : Bool) :
    pins.write (.one side index bit) =
      (do pins.checkIndex index; return pins.replace side ((pins.side side).set index bit)) := by
  cases side <;> rfl

theorem Wide.checkIndex_eq (wide : pins.Wide count) (index : Nat) :
    pins.checkIndex index =
      if index < count then .ok () else .error (.pinOutOfRange index count) := by
  have inputs : pins.count = count := wide.inputs
  rw [checkIndex, inputs]

theorem Wide.checkWidth_eq (wide : pins.Wide count) (bits : List Bool) :
    pins.checkWidth bits =
      if bits.length = count then .ok () else .error (.pinCountMismatch count bits.length) := by
  have inputs : pins.count = count := wide.inputs
  rw [checkWidth, inputs]

theorem Wide.checkRange_eq (wide : pins.Wide count) (range : PinRange) :
    pins.checkRange range =
      if range.first < count then
        if range.last < count then .ok () else .error (.pinOutOfRange range.last count)
      else .error (.pinOutOfRange range.first count) := by
  rw [checkRange, wide.checkIndex_eq, wide.checkIndex_eq]
  by_cases first : range.first < count
  · rw [if_pos first, if_pos first]
    rfl
  · rw [if_neg first, if_neg first]
    rfl

theorem Wide.write_of_fits (wide : pins.Wide count) {write : Write} (fits : write.Fits count) :
    pins.write write = .ok (pins.replace write.side (write.place (pins.side write.side))) := by
  cases write with
  | all side bits =>
      have width : bits.length = count := fits
      rw [write_all, wide.checkWidth_eq, if_pos width]
      rfl
  | one side index bit =>
      have inside : index < count := fits
      rw [write_one, wide.checkIndex_eq, if_pos inside]
      rfl
  | span range bits =>
      have inputs : pins.count = count := wide.inputs
      obtain ⟨first, last, width⟩ := fits
      exact pins.writeRange_of_ends range bits (inputs ▸ first) (inputs ▸ last) width

theorem Wide.write_of_refused (wide : pins.Wide count) {write : Write} {fault : Fault}
    (refused : write.Refused count fault) : pins.write write = .error fault := by
  cases refused with
  | width side bits other =>
      rw [write_all, wide.checkWidth_eq, if_neg other]
      rfl
  | index side index bit outside =>
      rw [write_one, wide.checkIndex_eq, if_neg (Nat.not_lt.mpr outside)]
      rfl
  | first range bits outside =>
      rw [Pins.write, Pins.writeRange, wide.checkRange_eq, if_neg (Nat.not_lt.mpr outside)]
      rfl
  | last range bits inside outside =>
      rw [Pins.write, Pins.writeRange, wide.checkRange_eq, if_pos inside,
        if_neg (Nat.not_lt.mpr outside)]
      rfl
  | spanWidth range bits first last other =>
      rw [Pins.write, Pins.writeRange, wide.checkRange_eq, if_pos first, if_pos last]
      simp [other, bind, Except.bind, throw, throwThe, MonadExceptOf.throw]

theorem Wide.write_eq_error_iff (wide : pins.Wide count) (write : Write) (fault : Fault) :
    pins.write write = .error fault ↔ write.Refused count fault := by
  refine ⟨?_, wide.write_of_refused⟩
  intro fails
  rcases write.fits_or_refused count with fits | ⟨reason, refused⟩
  · rw [wide.write_of_fits fits] at fails
    cases fails
  · rw [wide.write_of_refused refused] at fails
    cases fails
    exact refused

theorem Wide.exists_write_iff (wide : pins.Wide count) (write : Write) :
    (∃ written, pins.write write = .ok written) ↔ write.Fits count := by
  refine ⟨?_, fun fits => ⟨_, wide.write_of_fits fits⟩⟩
  rintro ⟨written, succeeds⟩
  rcases write.fits_or_refused count with fits | ⟨reason, refused⟩
  · exact fits
  · rw [wide.write_of_refused refused] at succeeds
    cases succeeds

theorem Wide.settle_of_not_fits (wide : pins.Wide count) {write : Write}
    (unfit : ¬ write.Fits count) : (pins.settle (pins.write write)).2 = pins := by
  cases result : pins.write write with
  | error fault => rfl
  | ok written => exact False.elim (unfit ((wide.exists_write_iff write).mp ⟨written, result⟩))

/-! ### Histories -/

/-- Both sides have their width, and their bits are the given ones. -/
structure Holds (count : Nat) (bits : Side → Nat → Bool) (pins : Pins) : Prop where
  wide : pins.Wide count
  bits : ∀ side index, index < count → bitAt (pins.side side) index = bits side index

theorem off_holds (count : Nat) : (off count).Holds count (lastBit count []) where
  wide := off_wide count
  bits := by
    intro side index inside
    cases side <;> simp [Pins.side, off, bitAt, inside, lastBit]

theorem lastBit_append (count : Nat) (writes : List Write) (write : Write) (side : Side)
    (index : Nat) :
    lastBit count (writes ++ [write]) side index =
      (if write.side = side ∧ write.Fits count then write.bit? index else none).getD
        (lastBit count writes side index) := by
  unfold lastBit
  rw [List.filter_append, List.filterMap_append]
  by_cases counts : write.side = side ∧ write.Fits count
  · rw [List.filter_cons_of_pos (by simpa using counts), List.filter_nil, if_pos counts]
    cases given : write.bit? index with
    | none => simp [given]
    | some bit => simp [given]
  · rw [List.filter_cons_of_neg (by simpa using counts), List.filter_nil, if_neg counts]
    simp

/-- A write that comes after a history is the last one of a longer history. -/
theorem Holds.write {writes : List Write} (holds : pins.Holds count (lastBit count writes))
    (write : Write) :
    (pins.settle (pins.write write)).2.Holds count (lastBit count (writes ++ [write])) := by
  by_cases fits : write.Fits count
  · rw [holds.wide.write_of_fits fits]
    have width := holds.wide.side write.side
    refine ⟨holds.wide.replace write.side (fits.length_place width), ?_⟩
    intro side index inside
    rw [lastBit_append, settle, side_replace]
    by_cases same : write.side = side
    · subst same
      rw [if_pos rfl, if_pos ⟨rfl, fits⟩, fits.bitAt_place width index inside,
        holds.bits write.side index inside]
    · rw [if_neg same, if_neg fun both => same both.1]
      exact holds.bits side index inside
  · rw [holds.wide.settle_of_not_fits fits]
    refine ⟨holds.wide, fun side index inside => ?_⟩
    rw [lastBit_append, if_neg fun both => fits both.2]
    exact holds.bits side index inside

theorem holds_after (count : Nat) (writes : List Write) :
    ((off count).after writes).Holds count (lastBit count writes) := by
  induction writes using List.reverseRecOn with
  | nil => exact off_holds count
  | append_singleton earlier write ih =>
      rw [after, List.foldl_append]
      exact ih.write write

/-- What can be observed of the pins if these are their bits. -/
structure Shows (count : Nat) (bits : Side → Nat → Bool) (pins : Pins) : Prop where
  inputs : pins.inputs = (List.range count).map (bits .input)
  outputs : pins.outputs = (List.range count).map (bits .output)
  values : pins.values =
    (List.range count).map fun index => bits .input index || bits .output index
  input : ∀ index, pins.input index =
    if index < count then .ok (bits .input index) else .error (.pinOutOfRange index count)
  output : ∀ index, pins.output index =
    if index < count then .ok (bits .output index) else .error (.pinOutOfRange index count)
  value : ∀ index, pins.value index =
    if index < count then .ok (bits .input index || bits .output index)
    else .error (.pinOutOfRange index count)
  readRange : ∀ range : PinRange, pins.readRange range =
    if range.first < count then
      if range.last < count then
        .ok (range.indices.map fun index => bits .input index || bits .output index)
      else .error (.pinOutOfRange range.last count)
    else .error (.pinOutOfRange range.first count)

theorem Wide.guarded_eq (wide : pins.Wide count) {index : Nat} {found expected : Bool}
    (same : index < count → found = expected) :
    (do pins.checkIndex index; return found) =
      if index < count then .ok expected else .error (.pinOutOfRange index count) := by
  rw [wide.checkIndex_eq]
  by_cases inside : index < count
  · rw [if_pos inside, if_pos inside, same inside]
    rfl
  · rw [if_neg inside, if_neg inside]
    rfl

theorem Holds.side {bits : Side → Nat → Bool} (holds : pins.Holds count bits) (side : Side) :
    pins.side side = (List.range count).map (bits side) := by
  have width := holds.wide.side side
  apply List.ext_getElem
  · rw [width, List.length_map, List.length_range]
  · intro index inside _alsoInside
    rw [List.getElem_map, List.getElem_range, ← holds.bits side index (width ▸ inside), bitAt,
      List.getElem?_eq_getElem inside, Option.getD_some]

theorem Holds.shows {bits : Side → Nat → Bool} (holds : pins.Holds count bits) :
    pins.Shows count bits where
  inputs := holds.side .input
  outputs := holds.side .output
  values := by
    have inputs : pins.inputs = _ := holds.side .input
    have outputs : pins.outputs = _ := holds.side .output
    rw [values, inputs, outputs, List.zipWith_map, List.zipWith_self]
  input := fun index => holds.wide.guarded_eq (holds.bits .input index)
  output := fun index => holds.wide.guarded_eq (holds.bits .output index)
  value := by
    intro index
    apply holds.wide.guarded_eq
    intro inside
    rw [← holds.bits .input index inside, ← holds.bits .output index inside]
    rfl
  readRange := by
    intro range
    by_cases first : range.first < count
    · by_cases last : range.last < count
      · rw [if_pos first, if_pos last, holds.wide.readRange_eq_bitsOf range first last]
        congr 1
        apply List.map_congr_left
        intro index member
        have covered : range.count = range.last + 1 - range.first := rfl
        have inside : index < count := by
          have bounds := List.mem_range'_1.mp member
          omega
        rw [holds.wide.bitAt_values, ← holds.bits .input index inside,
          ← holds.bits .output index inside]
        rfl
      · rw [if_pos first, if_neg last, Pins.readRange, holds.wide.checkRange_eq, if_pos first,
          if_neg last]
        rfl
    · rw [if_neg first, Pins.readRange, holds.wide.checkRange_eq, if_neg first]
      rfl

/-! ### Ranges pin by pin -/

theorem replace_self (pins : Pins) (side : Side) : pins.replace side (pins.side side) = pins := by
  cases side <;> rfl

/-- Splicing in a list of bits is setting its first bit and splicing in the rest behind it. -/
private theorem spliced_set (bits rest : List Bool) (bit : Bool) (first : Nat)
    (inside : first < bits.length) :
    (bits.set first bit).take (first + 1) ++ rest ++
        (bits.set first bit).drop (first + 1 + rest.length) =
      bits.take first ++ bit :: rest ++ bits.drop (first + (bit :: rest).length) := by
  have front : (bits.set first bit).take (first + 1) = bits.take first ++ [bit] := by
    rw [List.take_add_one, List.take_set_of_le (Nat.le_refl _), List.getElem?_set_self inside]
    rfl
  have behind : (bits.set first bit).drop (first + 1 + rest.length) =
      bits.drop (first + (bit :: rest).length) := by
    rw [List.drop_set_of_lt (by omega), List.length_cons]
    congr 1
    omega
  rw [front, behind, List.append_assoc (bits.take first), List.singleton_append]

theorem Wide.foldlM_setOutput (wide : pins.Wide count) (first : Nat) (bits : List Bool)
    (inside : first + bits.length ≤ count) :
    (bits.zipIdx first).foldlM (fun pins entry => pins.setOutput entry.2 entry.1) pins =
      .ok (pins.replace .output
        (pins.outputs.take first ++ bits ++ pins.outputs.drop (first + bits.length))) := by
  induction bits generalizing first pins with
  | nil =>
      have whole : pins.replace .output pins.outputs = pins := pins.replace_self .output
      rw [List.append_nil, List.length_nil, Nat.add_zero, List.take_append_drop, whole]
      rfl
  | cons bit rest ih =>
      rw [List.length_cons] at inside
      have place : first < count := by omega
      have fits : (Write.one .output first bit).Fits count := place
      have set : pins.setOutput first bit =
          .ok (pins.replace .output (pins.outputs.set first bit)) := wide.write_of_fits fits
      have width : (pins.outputs.set first bit).length = count :=
        List.length_set.trans wide.outputs
      have later := ih (wide.replace .output width) (first + 1) (by omega)
      rw [List.zipIdx_cons, List.foldlM_cons, set, ← spliced_set _ _ _ _ (wide.outputs ▸ place)]
      exact later

/-- How the pins answer a write. -/
structure Answers (count : Nat) (pins : Pins) : Prop where
  succeeds : ∀ write, (∃ written, pins.write write = .ok written) ↔ write.Fits count
  fails : ∀ write fault, pins.write write = .error fault ↔ write.Refused count fault
  kept : ∀ write, ¬ write.Fits count → (pins.settle (pins.write write)).2 = pins
  pinwise : ∀ range bits, (Write.span range bits).Fits count →
    pins.writeRange range bits =
      (bits.zipIdx range.first).foldlM (fun pins entry => pins.setOutput entry.2 entry.1) pins
  idle : ∀ range : PinRange, range.last < range.first → range.first < count →
    pins.writeRange range [] = .ok pins

theorem Wide.answers (wide : pins.Wide count) : pins.Answers count where
  succeeds := wide.exists_write_iff
  fails := wide.write_eq_error_iff
  kept := fun _write unfit => wide.settle_of_not_fits unfit
  pinwise := by
    intro range bits fits
    rw [wide.foldlM_setOutput range.first bits fits.span_inside]
    exact wide.write_of_fits fits
  idle := by
    intro range backward first
    have covered : range.count = range.last + 1 - range.first := rfl
    have fits : (Write.span range []).Fits count := by
      refine ⟨first, by omega, ?_⟩
      rw [List.length_nil]
      omega
    have nothing := wide.foldlM_setOutput range.first [] fits.span_inside
    exact (wide.write_of_fits fits).trans nothing.symm

/-- After any writes, successful or not, the pins are two arrays that hold the last bits that
were successfully written. Every way to read them shows these bits, and the next write fails
exactly if it does not fit them. -/
theorem pins_are_two_arrays (count : Nat) (writes : List Write) :
    ((off count).after writes).Wide count ∧
      ((off count).after writes).Shows count (lastBit count writes) ∧
      ((off count).after writes).Answers count := by
  have holds := holds_after count writes
  exact ⟨holds.wide, holds.shows, holds.wide.answers⟩

/-- Half of these writes fail, each for another reason. The pins show what the others left,
and refuse a range behind them by its last end. -/
theorem pins_are_two_arrays_with_failed_writes :
    ∃ writes : List Write,
      writes.map (fun write => decide (write.Fits 4)) =
        [true, true, false, true, false, false, true, false] ∧
      ((off 4).after writes).Shows 4 (lastBit 4 writes) ∧
      (List.range 4).map (lastBit 4 writes .input) = [false, false, false, true] ∧
      (List.range 4).map (lastBit 4 writes .output) = [false, true, true, false] ∧
      ((off 4).after writes).write (.span ⟨3, 4⟩ []) = .error (.pinOutOfRange 4 4) := by
  have shown := pins_are_two_arrays 4
    [.all .input [true, false, false, true], .span ⟨1, 3⟩ [true, false, false],
      .span ⟨2, 1⟩ [true], .one .output 2 true, .one .output 4 true, .all .output [true],
      .one .input 0 false, .span ⟨2, 5⟩ [true, true, true, true]]
  exact ⟨_, by decide, shown.2.1, by decide, by decide,
    (shown.2.2.fails _ _).mpr (.last ⟨3, 4⟩ [] (by decide) (by decide))⟩

end Pins

end PinMachine
