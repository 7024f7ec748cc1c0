import PinMachine.Token.Value

/-!
Faults: the reasons why executing a line fails. Faults of arithmetic and of pin
access are reported and execution goes on; every other fault ends the run.
-/

namespace PinMachine

/-- Why a line could not be executed, or a call of a host not be served. -/
inductive Fault where
  | stackOverflow (limit : Nat)
  | stackUnderflow
  | unknownRegister (name : String)
  | unknownLabel (name : String)
  /-- The instruction has no use for an argument of this kind. -/
  | invalidArgument (instruction : String) (kind : TokenKind)
  | missingArgument (instruction : String) (index : Nat)
  /-- An argument does not have the value that is asked of it. -/
  | value (error : ValueError)
  /-- A line address that does not fit a word. -/
  | addressOutOfRange (address : Nat)
  /-- The line holds nothing that can be executed. -/
  | noDispatch (line : Nat)
  | divisionByZero
  | pinOutOfRange (index count : Nat)
  | pinCountMismatch (expected actual : Nat)
  /-- A step of an interpreter that has already failed. -/
  | faulted
  deriving DecidableEq, Repr

namespace Fault

def message : Fault → String
  | .stackOverflow limit =>
      "stack overflow: maximum depth of " ++ toString limit ++ " reached"
  | .stackUnderflow => "stack underflow: return without matching call"
  | .unknownRegister name => "register " ++ name ++ " does not exist"
  | .unknownLabel name => "label \"" ++ name ++ "\" could not be found"
  | .invalidArgument instruction kind =>
      "instruction " ++ instruction ++ " cannot take a " ++ kind.name ++ " argument"
  | .missingArgument instruction index =>
      "instruction " ++ instruction ++ " is missing argument " ++ toString index
  | .value error => error.message
  | .addressOutOfRange address =>
      "line address " ++ toString address ++ " does not fit in a register"
  | .noDispatch line => "line " ++ toString line ++ " has no executable instruction"
  | .divisionByZero => "division by zero"
  | .pinOutOfRange index count =>
      "pin " ++ toString index ++ " is out of range (pin count " ++ toString count ++
        ")"
  | .pinCountMismatch expected actual =>
      "expected " ++ toString expected ++ " pin values, got " ++ toString actual
  | .faulted => "interpreter has outstanding errors"

def isFatal : Fault → Bool
  | .divisionByZero | .pinOutOfRange _ _ | .pinCountMismatch _ _ => false
  | _ => true

end Fault

end PinMachine
