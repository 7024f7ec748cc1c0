import PinMachine.Validation.Program

/-!
The interpreter. It is made only from a configuration without problems and a
program without errors, and then advances in steps. A step either refuses,
idles, waits, or executes one line; a fault of the line is recorded, and a fatal
one ends the run for good.
-/

namespace PinMachine

/-- What an instruction line does, found when the interpreter is made. -/
structure Dispatch where
  behavior : Behavior
  arguments : List Token

/-- A program in execution. -/
structure Interpreter where
  config : Config
  /-- What each line does; nothing for lines without an instruction. -/
  dispatch : Array (Option Dispatch)
  machine : Machine
  /-- Warnings of the validation, then the faults of the run. -/
  diagnostics : Diagnostics
  /-- Steps already spent on the current line. -/
  pendingSteps : Nat

inductive Rejection where
  | invalidConfig (problems : List ConfigError)
  | invalidProgram (diagnostics : Diagnostics)
  deriving DecidableEq, Repr

def Rejection.message : Rejection → String
  | .invalidConfig problems =>
      "invalid execution config: " ++
        "; ".intercalate (problems.map ConfigError.message)
  | .invalidProgram diagnostics =>
      "program failed validation:\n" ++ diagnostics.display

def Line.dispatch? (line : Line) (catalog : Catalog) : Option Dispatch :=
  match line.instructionName? with
  | none => none
  | some name =>
      match catalog.resolve name (line.arguments.map Token.kind) with
      | .ok definition => some ⟨definition.behavior, line.arguments⟩
      | .error _ => none

namespace Interpreter

/-- Makes an interpreter. A bad configuration is reported before a bad program;
warnings about the program are kept. -/
def create (config : Config) (program : Program) (catalog : Catalog) :
    Except Rejection Interpreter :=
  if config.Valid then
    let diagnostics := program.validate config catalog
    if diagnostics.isOk then
      .ok
        { config := config
          dispatch := (program.lines.map fun line => line.dispatch? catalog).toArray
          machine := .start config program
          diagnostics := diagnostics
          pendingSteps := 0 }
    else .error (.invalidProgram diagnostics)
  else .error (.invalidConfig config.problems)

def creationJournal : Except Rejection Interpreter → List JournalEntry
  | .error (.invalidConfig _) => []
  | .error (.invalidProgram diagnostics) => diagnostics.validationJournal
  | .ok interpreter =>
      [{ level := .info
         component := .interpreter
         message :=
          "interpreter ready: " ++
            toString interpreter.machine.program.instructionCount ++
            " instruction line(s), " ++ toString interpreter.config.pins ++
            " pin(s), stack depth " ++
            toString interpreter.config.stackDepthLimit }]

/-- What the next step of an interpreter will do. -/
inductive Phase where
  | faulted
  | terminated
  | sleeping
  | waiting
  | executing
  deriving DecidableEq, Repr

def isTerminated (interpreter : Interpreter) : Bool :=
  interpreter.machine.flow.isTerminated

def phase (interpreter : Interpreter) : Phase :=
  if !interpreter.diagnostics.isOk then .faulted
  else if interpreter.isTerminated then .terminated
  else if interpreter.machine.flow.isSleeping then .sleeping
  else if interpreter.pendingSteps + 1 < interpreter.config.steps then .waiting
  else .executing

/-- The interpreter whose current line is the one to execute next. -/
def focus (interpreter : Interpreter) : Interpreter :=
  { interpreter with
    machine :=
      { interpreter.machine with flow := interpreter.machine.flow.focus } }

def performLine (interpreter : Interpreter) : Action.Outcome Unit :=
  let line := interpreter.machine.flow.current
  match interpreter.dispatch[line]? with
  | some (some dispatch) =>
      (dispatch.behavior dispatch.arguments).perform interpreter.machine
  | _ => ⟨.error (.noDispatch line), interpreter.machine, .empty⟩

/-- Whether a line ended with a fault that ends the run. -/
def isFatal : Except Fault Unit → Bool
  | .ok _ => false
  | .error fault => fault.isFatal

/-- Chooses the next line after a line was performed: the following instruction
line, unless the line chose itself or faulted fatally. -/
def chooseNext (machine : Machine) (result : Except Fault Unit) : Machine :=
  let flow :=
    if isFatal result || machine.flow.redirected then machine.flow
    else machine.flow.advance machine.program
  { machine with flow := flow.settle }

/-- The record of a fault: it covers its whole line, and is an error exactly if
it is fatal. -/
def faultDiagnostic (program : Program) (line : Nat) (fault : Fault) : Diagnostic :=
  { severity := if fault.isFatal then .error else .warning
    line := line
    startColumn := 0
    endColumn := ((program.line? line).map Line.endColumn).getD 0
    message := fault.message }

/-- What a line leaves in the journal when it ends: that the program is over, and
the fault. -/
def lineTrace (line : Nat) (machine : Machine) (result : Except Fault Unit) :
    Trace :=
  let ending : Trace :=
    if machine.flow.isTerminated then
      .note .debug ("program terminated after line " ++ toString line)
    else .empty
  match result with
  | .ok _ => ending
  | .error fault =>
      ending ++ .note (if fault.isFatal then .error else .warn)
        ("line " ++ toString line ++ ": " ++ fault.message)

/-! ### Steps -/

structure StepReport where
  result : Except Fault Unit
  interpreter : Interpreter
  trace : Trace

/-- Executes the current line and records its fault. A fault that is not fatal
does not fail the step. -/
def executeLine (interpreter : Interpreter) : StepReport :=
  let line := interpreter.machine.flow.current
  let outcome := interpreter.performLine
  let machine := chooseNext outcome.machine outcome.result
  let trace := outcome.trace ++ lineTrace line machine outcome.result
  let executed := { interpreter with machine := machine, pendingSteps := 0 }
  match outcome.result with
  | .ok _ => ⟨.ok (), executed, trace⟩
  | .error fault =>
      let recorded :=
        { executed with
          diagnostics := executed.diagnostics.push
            (faultDiagnostic machine.program line fault) }
      ⟨if fault.isFatal then .error fault else .ok (), recorded, trace⟩

def step (interpreter : Interpreter) : StepReport :=
  match interpreter.phase with
  | .faulted =>
      ⟨.error .faulted, interpreter,
        .note .warn "step requested on a faulted interpreter"⟩
  | .terminated => ⟨.ok (), interpreter, .empty⟩
  | .sleeping =>
      ⟨.ok (),
        { interpreter with
          machine :=
            { interpreter.machine with flow := interpreter.machine.flow.idle } },
        .empty⟩
  | .waiting =>
      ⟨.ok (),
        { interpreter.focus with pendingSteps := interpreter.pendingSteps + 1 },
        .empty⟩
  | .executing => interpreter.focus.executeLine

/-- The outcome of a run: the number of steps taken, or the fault of the last
one. -/
structure RunReport where
  result : Except Fault Nat
  interpreter : Interpreter
  trace : Trace

/-- Steps until the program has ended, a step fails, or no steps are left. The
traces of the steps already taken are held newest first. -/
def runFrom (taken : Nat) (traces : List Trace) : Nat → Interpreter → RunReport
  | 0, interpreter => ⟨.ok taken, interpreter, .join traces.reverse⟩
  | left + 1, interpreter =>
      if interpreter.isTerminated then
        ⟨.ok taken, interpreter, .join traces.reverse⟩
      else
        let report := interpreter.step
        match report.result with
        | .ok _ =>
            runFrom (taken + 1) (report.trace :: traces) left report.interpreter
        | .error fault =>
            ⟨.error fault, report.interpreter,
              .join (report.trace :: traces).reverse⟩

def run (interpreter : Interpreter) (limit : Nat) : RunReport :=
  runFrom 0 [] limit interpreter

end Interpreter

end PinMachine
