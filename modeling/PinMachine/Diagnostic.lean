import PinMachine.Text.Lines

/-!
Diagnostics: problems found in a source, with their place and severity. A
collection of diagnostics grows at its end and is in order as long as no entry
is an error.
-/

namespace PinMachine

/-- How serious a diagnostic is, from least to most. -/
inductive Severity where
  | info
  | warning
  | error
  deriving DecidableEq, Repr

namespace Severity

def rank : Severity → Nat
  | .info => 0
  | .warning => 1
  | .error => 2

instance : LE Severity := ⟨fun lower upper => lower.rank ≤ upper.rank⟩

instance (lower upper : Severity) : Decidable (lower ≤ upper) :=
  inferInstanceAs (Decidable (lower.rank ≤ upper.rank))

instance : Max Severity :=
  ⟨fun left right => if left ≤ right then right else left⟩

def name : Severity → String
  | .info => "info"
  | .warning => "warning"
  | .error => "error"

end Severity

/-- A problem at a span of one line. Line and columns count from zero, and the
end column belongs to the span. -/
structure Diagnostic where
  severity : Severity
  line : Nat
  startColumn : Nat
  endColumn : Nat
  message : String
  deriving DecidableEq, Repr

namespace Diagnostic

def display (diagnostic : Diagnostic) : String :=
  diagnostic.severity.name ++ " [" ++ toString diagnostic.line ++ ":" ++
    toString diagnostic.startColumn ++ "-" ++ toString diagnostic.endColumn ++
    "]: " ++ diagnostic.message

/-- A number in at least four columns, with spaces on its left. -/
def lineLabel (number : Nat) : String :=
  let digits := toString number
  String.ofList (List.replicate (4 - digits.length) ' ') ++ digits

/-- How many columns are underlined: the span, and at least one. -/
def underlineWidth (diagnostic : Diagnostic) : Nat :=
  diagnostic.endColumn - diagnostic.startColumn + 1

/-- The quoted source line and the underline below it. -/
def excerpt (diagnostic : Diagnostic) (text : List Char) : String :=
  "  |\n" ++ lineLabel (diagnostic.line + 1) ++ " | " ++ String.ofList text ++
    "\n  | " ++ String.ofList (List.replicate diagnostic.startColumn ' ') ++
    String.ofList (List.replicate diagnostic.underlineWidth '^') ++ "\n"

/-- A diagnostic beside the source that it is about. Numbers are shown counted
from one, and a line outside the source is not quoted. -/
def render (file : String) (sourceLines : Array (List Char))
    (diagnostic : Diagnostic) : String :=
  diagnostic.severity.name ++ ": " ++ diagnostic.message ++ "\n --> " ++ file ++
    ":" ++ toString (diagnostic.line + 1) ++ ":" ++
    toString (diagnostic.startColumn + 1) ++ "\n" ++
    match sourceLines[diagnostic.line]? with
    | some text => diagnostic.excerpt text
    | none => ""

end Diagnostic

/-- The higher of a severity and the highest one found so far. -/
def Severity.raise (severity : Severity) : Option Severity → Severity
  | none => severity
  | some highest => max severity highest

def highestSeverity (entries : List Diagnostic) : Option Severity :=
  entries.foldr (fun entry highest => some (entry.severity.raise highest)) none

/-- Diagnostics in the order in which they were found. They are held newest
first, with their highest severity beside them. -/
structure Diagnostics where
  newestFirst : List Diagnostic
  highest? : Option Severity
  highest_eq : highest? = highestSeverity newestFirst
  deriving DecidableEq, Repr

namespace Diagnostics

def empty : Diagnostics := ⟨[], none, rfl⟩

def entries (diagnostics : Diagnostics) : List Diagnostic :=
  diagnostics.newestFirst.reverse

def ofList (entries : List Diagnostic) : Diagnostics :=
  ⟨entries.reverse, highestSeverity entries.reverse, rfl⟩

def push (diagnostics : Diagnostics) (entry : Diagnostic) : Diagnostics :=
  { newestFirst := entry :: diagnostics.newestFirst
    highest? := some (entry.severity.raise diagnostics.highest?)
    highest_eq := by rw [diagnostics.highest_eq]; rfl }

def append (diagnostics : Diagnostics) (entries : List Diagnostic) : Diagnostics :=
  entries.foldl push diagnostics

def size (diagnostics : Diagnostics) : Nat :=
  diagnostics.newestFirst.length

def isEmpty (diagnostics : Diagnostics) : Bool :=
  diagnostics.newestFirst.isEmpty

def isOk (diagnostics : Diagnostics) : Bool :=
  diagnostics.highest? != some .error

def withSeverity (diagnostics : Diagnostics) (severity : Severity) :
    List Diagnostic :=
  diagnostics.entries.filter fun entry => entry.severity == severity

def display (diagnostics : Diagnostics) : String :=
  String.join (diagnostics.entries.map fun entry => entry.display ++ "\n")

/-- Every entry beside the source, with an empty line between two entries. -/
def render (diagnostics : Diagnostics) (file source : String) : String :=
  let sourceLines := (splitLines source.toList).toArray
  "\n".intercalate (diagnostics.entries.map (Diagnostic.render file sourceLines))

end Diagnostics

end PinMachine
