import PinMachine.Catalog.Standard
import PinMachine.Host.Script
import PinMachine.Interpreter.Session
import PinMachine.Journal.Format
import PinMachine.Proofs.Catalog.CallTarget
import PinMachine.Proofs.Catalog.Failure
import PinMachine.Proofs.Catalog.JumpTarget
import PinMachine.Proofs.Catalog.PinTransfer
import PinMachine.Proofs.Catalog.Resolution
import PinMachine.Proofs.Catalog.Safety
import PinMachine.Proofs.Config.Addressing
import PinMachine.Proofs.Diagnostic.Underline
import PinMachine.Proofs.Interpreter.Atomicity
import PinMachine.Proofs.Interpreter.Calls
import PinMachine.Proofs.Interpreter.Comments
import PinMachine.Proofs.Interpreter.Delay
import PinMachine.Proofs.Interpreter.Failed
import PinMachine.Proofs.Interpreter.Growth
import PinMachine.Proofs.Interpreter.Lifecycle
import PinMachine.Proofs.Interpreter.PinIndependence
import PinMachine.Proofs.Interpreter.Sleep
import PinMachine.Proofs.Interpreter.Spans
import PinMachine.Proofs.Interpreter.StraightLine
import PinMachine.Proofs.Machine.FlowTable
import PinMachine.Proofs.Machine.PinHistory
import PinMachine.Proofs.Program.Canonical
import PinMachine.Proofs.Program.Concatenation
import PinMachine.Proofs.Program.Grammar
import PinMachine.Proofs.Program.Literals
import PinMachine.Proofs.Program.PinRanges
import PinMachine.Proofs.Program.Printing
import PinMachine.Proofs.Reference.Refinement
import PinMachine.Proofs.Text.Lines
import PinMachine.Proofs.Validation.Incomplete
import PinMachine.Proofs.Validation.Reporting
