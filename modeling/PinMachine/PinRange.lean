/-!
Ranges of pins. A range names its first and its last pin; it is empty if the
last stands before the first.
-/

namespace PinMachine

/-- The pins from `first` to `last`, both included. -/
structure PinRange where
  first : Nat
  last : Nat
  deriving DecidableEq, Repr

namespace PinRange

def single (index : Nat) : PinRange := ⟨index, index⟩

def count (range : PinRange) : Nat :=
  range.last + 1 - range.first

def indices (range : PinRange) : List Nat :=
  List.range' range.first range.count

def display (range : PinRange) : String :=
  ".p" ++ toString range.first ++ "..p" ++ toString range.last

end PinRange

end PinMachine
