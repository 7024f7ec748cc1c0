import PinMachine.Catalog
import PinMachine.Program.Source
import PinMachine.Validation.Token

/-!
Checks of whole programs. A first pass collects the declared labels, so that a
label may be used before its declaration; a second pass checks every line. No
problem hides another one on a later line.
-/

namespace PinMachine

/-- Declares labels one after the other. The problems already found are held
newest first. -/
def Scope.declareLabelsFrom (found : List Diagnostic) (scope : Scope) :
    List Token → Scope × List Diagnostic
  | [] => (scope, found.reverse)
  | token :: rest =>
      let (declared, problems) := scope.declareLabel token
      declared.declareLabelsFrom (problems.reverse ++ found) rest

def Scope.declareLabels (scope : Scope) (tokens : List Token) :
    Scope × List Diagnostic :=
  scope.declareLabelsFrom [] tokens

/-- The tokens that declare labels, in order. -/
def Program.labelTokens (program : Program) : List Token :=
  (program.lines.filter Line.isLabel).filterMap fun line => line.tokens.head?

/-- A diagnostic from the start of a line to its end. -/
def Line.problem (line : Line) (message : String) : Diagnostic :=
  { severity := .error
    line := line.index
    startColumn := 0
    endColumn := line.endColumn
    message := message }

/-- Why the instruction of a line has no overload for its arguments. A missing
overload is explained by the overloads that there are. -/
def Catalog.explain (catalog : Catalog) : ResolveError → String
  | .noMatchingOverload name arguments =>
      "Could not find valid override for " ++ Definition.signature name arguments ++
        ". Valid overrides: " ++
        ", ".intercalate ((catalog.overloads name).map Definition.display)
  | error => error.message

/-- The instruction of a line has an overload for its arguments. -/
def Line.checkSignature (line : Line) (catalog : Catalog) : List Diagnostic :=
  match line.instructionName? with
  | none => []
  | some name =>
      match catalog.resolve name (line.arguments.map Token.kind) with
      | .ok _ => []
      | .error error => [line.problem (catalog.explain error)]

/-- Tokens after the declaration of a label have no effect; a warning covers
them. -/
def Line.checkTrailing (line : Line) : List Diagnostic :=
  match line.arguments.head?, line.arguments.getLast? with
  | some first, some last =>
      [{ severity := .warning
         line := line.index
         startColumn := first.startColumn
         endColumn := last.endColumn
         message := "Tokens after a label declaration are ignored" }]
  | _, _ => []

def Line.check (line : Line) (scope : Scope) (catalog : Catalog) :
    List Diagnostic :=
  match line.unparsed with
  | some column =>
      [{ severity := .error
         line := line.index
         startColumn := column
         endColumn := line.endColumn
         message := unparsableMessage }]
  | none =>
      if line.isEmpty || line.isComment then []
      else if line.isLabel then
        line.checkTrailing ++ line.arguments.flatMap scope.checkToken
      else if line.isInstruction then
        line.checkSignature catalog ++ line.arguments.flatMap scope.checkToken
      else [line.problem "Line must start with an instruction or label"]

/-- What the tokens of any program may refer to before a label is declared. -/
def Scope.ofConfig (config : Config) : Scope :=
  { registers := config.registerNames
    labels := []
    pinCount := config.pins }

/-- Every problem of a program: first the repeated labels, then the problems of
the lines, in order. -/
def Program.validate (program : Program) (config : Config) (catalog : Catalog) :
    Diagnostics :=
  let (scope, repeated) :=
    (Scope.ofConfig config).declareLabels program.labelTokens
  .ofList (repeated ++ program.lines.flatMap fun line => line.check scope catalog)

/-- The journal of a validation: one entry if there are errors. -/
def Diagnostics.validationJournal (diagnostics : Diagnostics) :
    List JournalEntry :=
  if diagnostics.isOk then []
  else
    [{ level := .warn
       component := .validator
       message :=
        "program failed validation with " ++ toString diagnostics.size ++
          " diagnostic(s)" }]

end PinMachine
