import PinMachine.Action
import PinMachine.Catalog.ParameterKinds

/-!
Instruction catalogs. A name may have several overloads. Resolving a name with
its arguments picks the first overload, in order of declaration, that takes as
many arguments and whose parameters admit the category of each.
-/

namespace PinMachine

/-- One overload of an instruction. -/
structure Definition where
  name : String
  parameters : List ParameterKinds
  behavior : Behavior

namespace Definition

/-- There are as many arguments as parameters, and each argument shares a
category with its parameter. -/
def accepts (definition : Definition) (arguments : List ParameterKinds) : Bool :=
  definition.parameters.length == arguments.length &&
    (definition.parameters.zip arguments).all fun pair =>
      pair.1.intersects pair.2

def signature (name : String) (parameters : List ParameterKinds) : String :=
  if parameters.isEmpty then name
  else name ++ " " ++ ParameterKinds.displayAll parameters

def display (definition : Definition) : String :=
  signature definition.name definition.parameters

/-- The definition as a record. What it does is left out. -/
def detail (definition : Definition) : String :=
  "InstructionDefinition \x7b name: " ++ quote definition.name.toList ++
    ", parameters: [" ++
    ", ".intercalate (definition.parameters.map ParameterKinds.detail) ++
    "], .. \x7d"

end Definition

/-- Why a name and its arguments have no overload. -/
inductive ResolveError where
  | unknownName (name : String)
  | noMatchingOverload (name : String) (arguments : List ParameterKinds)
  | invalidArgumentKind (kind : TokenKind)
  deriving DecidableEq, Repr

def ResolveError.message : ResolveError → String
  | .unknownName name => "Cannot find instruction with name \"" ++ name ++ "\""
  | .noMatchingOverload name arguments =>
      "no overload of " ++ name ++ " accepts " ++ ParameterKinds.displayAll arguments
  | .invalidArgumentKind kind =>
      "a " ++ kind.name ++ " token cannot be an instruction argument"

/-- The category of an argument, or the error that it cannot be one. -/
def TokenKind.category (kind : TokenKind) : Except ResolveError ParameterKinds :=
  match kind.category? with
  | some category => .ok category
  | none => .error (.invalidArgumentKind kind)

structure Catalog where
  definitions : List Definition

namespace Catalog

def overloads (catalog : Catalog) (name : String) : List Definition :=
  catalog.definitions.filter fun definition => definition.name == name

def hasName (catalog : Catalog) (name : String) : Bool :=
  !(catalog.overloads name).isEmpty

/-- The first of several overloads that takes arguments of these categories. -/
def select (name : String) (overloads : List Definition)
    (arguments : List ParameterKinds) : Except ResolveError Definition :=
  match overloads with
  | [] => .error (.unknownName name)
  | _ :: _ =>
      match overloads.find? fun definition => definition.accepts arguments with
      | some definition => .ok definition
      | none => .error (.noMatchingOverload name arguments)

/-- The overload of a name for arguments of these kinds. A kind that is never an
argument is reported before a name that is not known. -/
def resolve (catalog : Catalog) (name : String) (arguments : List TokenKind) :
    Except ResolveError Definition := do
  let categories ← arguments.mapM TokenKind.category
  select name (catalog.overloads name) categories

/-- The position, among the overloads of a name, of the one that takes arguments
of these kinds. -/
def overloadIndex? (catalog : Catalog) (name : String)
    (arguments : List TokenKind) : Option Nat := do
  let categories ← arguments.mapM TokenKind.category?
  (catalog.overloads name).findIdx? fun definition => definition.accepts categories

end Catalog

end PinMachine
