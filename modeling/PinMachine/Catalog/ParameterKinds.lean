import PinMachine.Token.Kind

/-!
Sets of argument categories. A parameter of an instruction declares the set of
categories that it takes; an argument has exactly one category.
-/

namespace PinMachine

structure ParameterKinds where
  register : Bool := false
  label : Bool := false
  constant : Bool := false
  pinSingle : Bool := false
  pinMultiple : Bool := false
  deriving DecidableEq, Repr

namespace ParameterKinds

def none : ParameterKinds := {}

def onlyRegister : ParameterKinds := { register := true }
def onlyLabel : ParameterKinds := { label := true }
def onlyConstant : ParameterKinds := { constant := true }
def onlyPinSingle : ParameterKinds := { pinSingle := true }
def onlyPinMultiple : ParameterKinds := { pinMultiple := true }

def union (left right : ParameterKinds) : ParameterKinds :=
  { register := left.register || right.register
    label := left.label || right.label
    constant := left.constant || right.constant
    pinSingle := left.pinSingle || right.pinSingle
    pinMultiple := left.pinMultiple || right.pinMultiple }

def intersects (left right : ParameterKinds) : Bool :=
  (left.register && right.register) || (left.label && right.label) ||
    (left.constant && right.constant) || (left.pinSingle && right.pinSingle) ||
    (left.pinMultiple && right.pinMultiple)

/-- Every category of the second set is in the first. -/
def contains (left right : ParameterKinds) : Bool :=
  left.union right == left

/-- What has a value in every state of the machine. -/
def registerOrConstant : ParameterKinds := onlyRegister.union onlyConstant

/-- What has a value, labels included. -/
def registerConstantOrLabel : ParameterKinds := registerOrConstant.union onlyLabel

def anyPins : ParameterKinds := onlyPinSingle.union onlyPinMultiple

/-- The set as a number: each category has a binary place of its own. -/
def bits (kinds : ParameterKinds) : Nat :=
  kinds.register.toNat + 2 * kinds.label.toNat + 4 * kinds.constant.toNat +
    8 * kinds.pinSingle.toNat + 16 * kinds.pinMultiple.toNat

/-- The single categories with their names, in the order in which they are
shown. -/
def named : List (ParameterKinds × String) :=
  [(onlyRegister, "REGISTER"), (onlyLabel, "LABEL"), (onlyConstant, "CONSTANT"),
    (onlyPinSingle, "PIN_SINGLE"), (onlyPinMultiple, "PIN_MULTIPLE")]

/-- The names of the categories in the set, or `NONE`. -/
def display (kinds : ParameterKinds) : String :=
  match named.filter fun entry => kinds.contains entry.1 with
  | [] => "NONE"
  | entries => "|".intercalate (entries.map Prod.snd)

def detail (kinds : ParameterKinds) : String :=
  "ParameterKinds(" ++ kinds.display ++ ")"

def displayAll (kinds : List ParameterKinds) : String :=
  " ".intercalate (kinds.map display)

end ParameterKinds

/-- The category of an argument of this kind. Declarations, instruction names,
whitespace and comments are never arguments. -/
def TokenKind.category? : TokenKind → Option ParameterKinds
  | .register => some .onlyRegister
  | .labelArgument => some .onlyLabel
  | .pinRange | .pinRangeLength => some .onlyPinMultiple
  | .pin => some .onlyPinSingle
  | .binary | .hex | .integer => some .onlyConstant
  | .label | .instruction | .whitespace | .comment => none

end PinMachine
