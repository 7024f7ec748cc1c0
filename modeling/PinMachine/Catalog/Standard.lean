import PinMachine.Catalog
import PinMachine.Catalog.Operation

/-!
The standard catalog. The order of the table matters only among overloads of one
operation: the first that takes the arguments is the one executed.
-/

namespace PinMachine

def standardTable : List (Operation × List ParameterKinds) :=
  let reg := ParameterKinds.onlyRegister
  let word := ParameterKinds.registerOrConstant
  let target := ParameterKinds.registerConstantOrLabel
  let pins := ParameterKinds.anyPins
  [(.arithmetic .add, [word]),
   (.arithmetic .add, [word, word]),
   (.arithmetic .sub, [word]),
   (.arithmetic .sub, [word, word]),
   (.arithmetic .mul, [word]),
   (.arithmetic .mul, [word, word]),
   (.arithmetic .div, [word]),
   (.arithmetic .div, [word, word]),
   (.arithmetic .mod, [word]),
   (.arithmetic .mod, [word, word]),
   (.move, [reg, target]),
   (.bitwise .and, [reg, word]),
   (.bitwise .or, [reg, word]),
   (.bitwise .xor, [reg, word]),
   (.complement, [reg]),
   (.shift .left, [reg, word, word]),
   (.shift .right, [reg, word, word]),
   (.test .equal, [word, word]),
   (.test .notEqual, [word, word]),
   (.test .less, [word, word]),
   (.test .greater, [word, word]),
   (.jump, [target]),
   (.branch .equal, [target, word, word]),
   (.branch .notEqual, [target, word, word]),
   (.branch .less, [target, word, word]),
   (.branch .greater, [target, word, word]),
   (.call, [target]),
   (.giveBack .always, []),
   (.giveBack .always, [word]),
   (.giveBack .whenTrue, []),
   (.giveBack .whenTrue, [word]),
   (.giveBack .whenFalse, []),
   (.giveBack .whenFalse, [word]),
   (.sleep, [word]),
   (.storePins, [pins, word]),
   (.loadPins, [reg, pins]),
   (.clearPins, [pins])]

/-- A row of the table as a definition under the operation's mnemonic. -/
def Definition.ofOperation (operation : Operation)
    (parameters : List ParameterKinds) : Definition :=
  { name := operation.mnemonic
    parameters := parameters
    behavior := operation.behavior }

def Catalog.standard : Catalog :=
  ⟨standardTable.map fun row => .ofOperation row.1 row.2⟩

end PinMachine
