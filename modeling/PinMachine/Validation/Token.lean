import PinMachine.Diagnostic
import PinMachine.Token.Basic
import PinMachine.Token.Value

/-!
Checks of single tokens against the registers, labels and pins that a program
may use. A check never fails; it gives the list of the problems it found.
-/

namespace PinMachine

/-- What the tokens of a program may refer to. -/
structure Scope where
  registers : List String
  labels : List String
  pinCount : Nat
  deriving DecidableEq, Repr

/-- An error at the place of a token. -/
def Token.problem (token : Token) (message : String) : Diagnostic :=
  { severity := .error
    line := token.line
    startColumn := token.startColumn
    endColumn := token.endColumn
    message := message }

namespace Scope

/-- Adds the label that a token names, unless the scope already has it. -/
def declareLabel (scope : Scope) (token : Token) : Scope × List Diagnostic :=
  match token.lexeme.readName with
  | .error error => (scope, [token.problem error.message])
  | .ok name =>
      if name ∈ scope.labels then
        (scope, [token.problem ("label \"" ++ name ++ "\" already exists")])
      else ({ scope with labels := scope.labels ++ [name] }, [])

def checkRegister (scope : Scope) (token : Token) : List Diagnostic :=
  match token.lexeme.readName with
  | .error error => [token.problem error.message]
  | .ok name =>
      if name ∈ scope.registers then []
      else [token.problem ("Unknown register " ++ name)]

def checkLabel (scope : Scope) (token : Token) : List Diagnostic :=
  match token.lexeme.readName with
  | .error error => [token.problem error.message]
  | .ok name =>
      if name ∈ scope.labels then []
      else [token.problem ("label \"" ++ name ++ "\" could not be found")]

def checkPin (scope : Scope) (token : Token) : List Diagnostic :=
  match token.lexeme.readPinIndex with
  | .error error => [token.problem error.message]
  | .ok index =>
      if index < scope.pinCount then []
      else
        [token.problem
          ("Pin exceeds allowed range (max " ++ toString scope.pinCount ++ ")")]

/-- The range runs forward and ends at an existing pin. Both are checked. -/
def checkPinRange (scope : Scope) (token : Token) : List Diagnostic :=
  match token.lexeme.readPinRange with
  | .error error => [token.problem error.message]
  | .ok range =>
      (if range.last < range.first then
        [token.problem "Pin range end index cannot come before start index"]
      else []) ++
      (if range.last < scope.pinCount then []
      else
        [token.problem
          ("Pin range ends outside of allowed range (max " ++
            toString scope.pinCount ++ ")")])

def checkConstant (token : Token) : List Diagnostic :=
  match token.lexeme.readConstant with
  | .ok _ => []
  | .error (.overflow _) =>
      [token.problem
        ("Value is higher than maximum (" ++ token.kind.largestConstant ++ ")")]
  | .error error => [token.problem error.message]

/-- The problems of one token. Declarations, instruction names, whitespace and
comments have none here. -/
def checkToken (scope : Scope) (token : Token) : List Diagnostic :=
  match token.kind with
  | .register => scope.checkRegister token
  | .labelArgument => scope.checkLabel token
  | .pin => scope.checkPin token
  | .pinRange | .pinRangeLength => scope.checkPinRange token
  | .binary | .hex | .integer => checkConstant token
  | .label | .instruction | .whitespace | .comment => []

end Scope

end PinMachine
