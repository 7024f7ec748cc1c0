import PinMachine.Fault

/-!
Pins. A host drives the input side and a program drives the output side; both
sides have one bit for each pin, and the observed value of a pin is the
disjunction of its two bits. An access outside the pins is a fault and changes
nothing.
-/

namespace PinMachine

/-- The two sides of the pins, pin zero first. -/
structure Pins where
  inputs : List Bool
  outputs : List Bool
  deriving DecidableEq, Repr

namespace Pins

def off (count : Nat) : Pins :=
  ⟨List.replicate count false, List.replicate count false⟩

def count (pins : Pins) : Nat :=
  pins.inputs.length

def values (pins : Pins) : List Bool :=
  List.zipWith (· || ·) pins.inputs pins.outputs

/-- The index names a pin. -/
def checkIndex (pins : Pins) (index : Nat) : Except Fault Unit :=
  if index < pins.count then .ok ()
  else .error (.pinOutOfRange index pins.count)

/-- There is one bit for each pin. -/
def checkWidth (pins : Pins) (bits : List Bool) : Except Fault Unit :=
  if bits.length = pins.count then .ok ()
  else .error (.pinCountMismatch pins.count bits.length)

/-- Both ends of the range name pins; the first end is looked at first. -/
def checkRange (pins : Pins) (range : PinRange) : Except Fault Unit := do
  pins.checkIndex range.first
  pins.checkIndex range.last

def setInputs (pins : Pins) (bits : List Bool) : Except Fault Pins := do
  pins.checkWidth bits
  return { pins with inputs := bits }

def setOutputs (pins : Pins) (bits : List Bool) : Except Fault Pins := do
  pins.checkWidth bits
  return { pins with outputs := bits }

/-- The bit of a side at an index; pins that are not there are off. -/
def bitAt (side : List Bool) (index : Nat) : Bool :=
  side[index]?.getD false

def input (pins : Pins) (index : Nat) : Except Fault Bool := do
  pins.checkIndex index
  return bitAt pins.inputs index

def output (pins : Pins) (index : Nat) : Except Fault Bool := do
  pins.checkIndex index
  return bitAt pins.outputs index

def value (pins : Pins) (index : Nat) : Except Fault Bool := do
  pins.checkIndex index
  return bitAt pins.inputs index || bitAt pins.outputs index

def setInput (pins : Pins) (index : Nat) (bit : Bool) : Except Fault Pins := do
  pins.checkIndex index
  return { pins with inputs := pins.inputs.set index bit }

def setOutput (pins : Pins) (index : Nat) (bit : Bool) : Except Fault Pins := do
  pins.checkIndex index
  return { pins with outputs := pins.outputs.set index bit }

def readRange (pins : Pins) (range : PinRange) : Except Fault (List Bool) := do
  pins.checkRange range
  return (pins.values.drop range.first).take range.count

/-- Sets the output bits of a range, in order. There has to be one bit for each
pin of the range; an empty range is left as it is. -/
def writeRange (pins : Pins) (range : PinRange) (bits : List Bool) :
    Except Fault Pins := do
  pins.checkRange range
  if bits.length ≠ range.count then
    throw (.pinCountMismatch range.count bits.length)
  if bits.isEmpty then return pins
  return { pins with
    outputs :=
      pins.outputs.take range.first ++ bits ++ pins.outputs.drop (range.last + 1) }

/-- What a host can do with the pins. -/
inductive Operation where
  | setInputs (bits : List Bool)
  | setOutputs (bits : List Bool)
  | setInput (index : Nat) (bit : Bool)
  | setOutput (index : Nat) (bit : Bool)
  | input (index : Nat)
  | output (index : Nat)
  | value (index : Nat)
  deriving DecidableEq, Repr

/-- The result of a write: the new pins, or the fault and the old pins. -/
def settle (pins : Pins) : Except Fault Pins → Except Fault (Option Bool) × Pins
  | .ok written => (.ok none, written)
  | .error fault => (.error fault, pins)

/-- Performs a host operation. Reads give a bit and change nothing; writes give
nothing; a fault leaves the pins as they are. -/
def operate (pins : Pins) : Operation → Except Fault (Option Bool) × Pins
  | .setInputs bits => pins.settle (pins.setInputs bits)
  | .setOutputs bits => pins.settle (pins.setOutputs bits)
  | .setInput index bit => pins.settle (pins.setInput index bit)
  | .setOutput index bit => pins.settle (pins.setOutput index bit)
  | .input index => ((pins.input index).map some, pins)
  | .output index => ((pins.output index).map some, pins)
  | .value index => ((pins.value index).map some, pins)

end Pins

end PinMachine
