import PinMachine.Config
import PinMachine.Fault

/-!
Register banks. The names are fixed when a bank is made, every register starts
at zero, and reading or writing a name that the bank does not have is a fault.
-/

namespace PinMachine

/-- Named words: those that calls leave alone, and those that calls save. -/
structure RegisterBank where
  general : List (String × Word)
  stack : List (String × Word)
  deriving DecidableEq, Repr

namespace RegisterBank

/-- Registers with these names, all zero. -/
def zeros (names : List String) : List (String × Word) :=
  names.map fun name => (name, 0)

def ofConfig (config : Config) : RegisterBank :=
  ⟨zeros config.generalRegisterNames, zeros config.stackRegisterNames⟩

def cells (bank : RegisterBank) : List (String × Word) :=
  bank.general ++ bank.stack

def names (bank : RegisterBank) : List String :=
  bank.cells.map Prod.fst

def get? (bank : RegisterBank) (name : String) : Option Word :=
  (bank.general.lookup name).or (bank.stack.lookup name)

def contains (bank : RegisterBank) (name : String) : Bool :=
  (bank.get? name).isSome

def get (bank : RegisterBank) (name : String) : Except Fault Word :=
  match bank.get? name with
  | some value => .ok value
  | none => .error (.unknownRegister name)

/-- The cell of a register with a new value; any other cell as it is. -/
def overwrite (name : String) (value : Word) (cell : String × Word) :
    String × Word :=
  if cell.1 = name then (name, value) else cell

/-- Gives a register a new value and leaves all others as they are. -/
def set (bank : RegisterBank) (name : String) (value : Word) :
    Except Fault RegisterBank :=
  if bank.contains name then
    .ok ⟨bank.general.map (overwrite name value),
      bank.stack.map (overwrite name value)⟩
  else .error (.unknownRegister name)

def stackWords (bank : RegisterBank) : List Word :=
  bank.stack.map Prod.snd

def clearStack (bank : RegisterBank) : RegisterBank :=
  { bank with stack := zeros (bank.stack.map Prod.fst) }

def restoreStack (bank : RegisterBank) (saved : List Word) : RegisterBank :=
  { bank with stack := (bank.stack.map Prod.fst).zip saved }

/-- All registers, sorted by name. -/
def sorted (bank : RegisterBank) : List (String × Word) :=
  bank.cells.mergeSort fun left right => left.1 ≤ right.1

end RegisterBank

end PinMachine
