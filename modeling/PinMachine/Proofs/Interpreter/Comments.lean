import PinMachine.Catalog.Standard
import PinMachine.Proofs.Interpreter.Lockstep
import PinMachine.Proofs.Interpreter.Phase
import PinMachine.Proofs.Validation.Accepted

/-!
Sessions with and without comments. A machine uses its program only through the tables
and the texts of the lines, so two machines that differ in nothing but programs that
agree do the same. A source read with its comments and without them gives programs that
agree, hence interpreters between which no session can tell a difference.
-/

namespace PinMachine

/-- Two machines in the same state, on programs that agree. -/
structure Machine.Twin (one other : Machine) : Prop where
  program : one.program.Agrees other.program
  registers : one.registers = other.registers
  pins : one.pins = other.pins
  stack : one.stack = other.stack
  flow : one.flow = other.flow

namespace Machine

variable {one other : Machine}

theorem twin_sharesCalls : SharesCalls Twin where
  program := fun twin => twin.program
  flow := fun twin => twin.flow
  reflow := fun twin _flow => { twin with flow := rfl }
  registers := fun twin => twin.registers
  stack := fun twin => twin.stack
  store := fun twin _registers => { twin with registers := rfl }
  restack := fun twin _stack => { twin with stack := rfl }

theorem Twin.setPins (twin : one.Twin other) (range : PinRange) (bits : List Bool) :
    (one.setPins range bits).1 = (other.setPins range bits).1 ∧
      (one.setPins range bits).2.Twin (other.setPins range bits).2 := by
  unfold Machine.setPins
  rw [twin.pins]
  cases other.pins.writeRange range bits with
  | ok written => exact ⟨rfl, { twin with pins := rfl }⟩
  | error fault => exact ⟨rfl, twin⟩

theorem Twin.serve (twin : one.Twin other) (request : Request) :
    ServesAlike Twin one other request := by
  cases request with
  | setPins range bits => exact twin.setPins range bits
  | pins range => exact ⟨congrArg (·.readRange range) twin.pins, twin⟩
  | _ => exact twin_sharesCalls.serve twin _ rfl

theorem Twin.perform {α : Type} (twin : one.Twin other) (action : Action α) :
    OutcomesAlike Twin (action.perform one) (action.perform other) :=
  Action.perform_alike twin_sharesCalls.toSharesFlow
    (fun _one _other request holds _admitted => holds.serve request) action
    (Action.allRequests_true action) one other twin

end Machine

namespace Interpreter

/-- Two interpreters in the same state, on programs that agree. -/
structure Twin (one other : Interpreter) : Prop where
  config : one.config = other.config
  dispatch : one.dispatch = other.dispatch
  machine : one.machine.Twin other.machine
  diagnostics : one.diagnostics = other.diagnostics
  pendingSteps : one.pendingSteps = other.pendingSteps

variable {one other : Interpreter}

theorem Twin.lockstep (twin : one.Twin other) : Lockstep Machine.Twin one other :=
  { twin with steps := congrArg Config.steps twin.config }

theorem Twin.step (twin : one.Twin other) : StepsAlike Twin one.step other.step := by
  have stepped := twin.lockstep.step Machine.twin_sharesCalls.toSharesFlow
    fun _executing _entry _found focused => focused.perform _
  refine ⟨stepped.result, stepped.trace, { stepped.interpreter with config := ?_ }⟩
  rw [step_config, step_config, twin.config]

theorem Twin.obey_pins (twin : one.Twin other) (operation : Pins.Operation) :
    (one.obey (.pins operation)).reply = (other.obey (.pins operation)).reply ∧
      (one.obey (.pins operation)).interpreter.Twin
        (other.obey (.pins operation)).interpreter := by
  unfold Interpreter.obey
  rw [twin.machine.pins]
  exact ⟨rfl, { twin with machine := { twin.machine with pins := rfl } }⟩

theorem twin_coupling : Coupling (fun _ => True) (fun _ => True) Twin where
  terminated := fun twin => twin.lockstep.isTerminated Machine.twin_sharesCalls.toSharesFlow
  step := fun twin _tolerable => twin.step
  pins := fun twin operation _admitted => twin.obey_pins operation

theorem Twin.session (twin : one.Twin other) (commands : List Command) :
    one.answers commands = other.answers commands ∧
      (one.after commands).Twin (other.after commands) :=
  twin_coupling.session commands twin (fun _ _ _ _ => trivial) (fun _ _ => trivial)

theorem dispatchTable_skip (source : String) (catalog : Catalog) :
    (Program.ofSource .skip source).lines.map (·.dispatch? catalog) =
      (Program.ofSource .keep source).lines.map (·.dispatch? catalog) := by
  rw [Program.ofSource_skip_lines, List.map_map]
  apply List.map_congr_left
  intro line member
  exact Line.dispatch?_bare (Program.commentLast_of_mem source line member) catalog

theorem twin_start (config : Config) (source : String) :
    (Machine.start config (.ofSource .keep source)).Twin
      (.start config (.ofSource .skip source)) where
  program := Program.ofSource_agrees source
  registers := rfl
  pins := rfl
  stack := rfl
  flow := by
    simp only [Machine.start, Flow.start, (Program.ofSource_agrees source).nextInstruction?]

theorem twin_of_create (config : Config) (source : String) (catalog : Catalog)
    (kept skipped : Interpreter)
    (keeping : create config (.ofSource .keep source) catalog = .ok kept)
    (skipping : create config (.ofSource .skip source) catalog = .ok skipped) :
    kept.Twin skipped := by
  obtain ⟨_valid, _clean, rfl⟩ := create_eq_ok _ _ _ kept keeping
  obtain ⟨_valid, _clean, rfl⟩ := create_eq_ok _ _ _ skipped skipping
  exact
    { config := rfl
      dispatch := by rw [dispatchTable_skip]
      machine := twin_start config source
      diagnostics := Program.ofSource_validate source config catalog
      pendingSteps := rfl }

theorem create_eq_error_iff (config : Config) (source : String) (catalog : Catalog)
    (rejection : Rejection) :
    create config (.ofSource .keep source) catalog = .error rejection ↔
      create config (.ofSource .skip source) catalog = .error rejection := by
  unfold create
  rw [Program.ofSource_validate]
  by_cases valid : config.Valid
  · rw [if_pos valid, if_pos valid]
    by_cases clean : ((Program.ofSource .skip source).validate config catalog).isOk = true
    · simp only [clean, if_true, reduceCtorEq]
    · simp only [clean, if_false, Bool.false_eq_true]
  · rw [if_neg valid, if_neg valid]

/-- Comments never matter. A source read with its comments and without them has the same
lexical errors, the same tokens but for the comments and the same problems; it makes an
interpreter either way or is rejected for the same reason; and in every session the two
interpreters answer alike and reach the same state. -/
theorem comments_never_matter (source : String) (config : Config) (catalog : Catalog) :
    (Program.ofSource .keep source).lexicalErrors =
        (Program.ofSource .skip source).lexicalErrors ∧
      (Program.ofSource .keep source).lines.map (fun line => withoutComments line.tokens) =
        (Program.ofSource .skip source).lines.map Line.tokens ∧
      (Program.ofSource .keep source).validate config catalog =
        (Program.ofSource .skip source).validate config catalog ∧
      match create config (.ofSource .keep source) catalog,
          create config (.ofSource .skip source) catalog with
      | .ok kept, .ok skipped => ∀ commands,
          kept.answers commands = skipped.answers commands ∧
            (kept.after commands).Twin (skipped.after commands)
      | .error rejection, .error other => rejection = other
      | _, _ => False := by
  refine ⟨Program.ofSource_lexicalErrors source, ?_,
    Program.ofSource_validate source config catalog, ?_⟩
  · rw [Program.ofSource_skip_lines, List.map_map]
    rfl
  · cases keeping : create config (.ofSource .keep source) catalog with
    | ok kept =>
        cases skipping : create config (.ofSource .skip source) catalog with
        | ok skipped =>
            exact (twin_of_create config source catalog kept skipped keeping skipping).session
        | error rejection =>
            rw [← create_eq_error_iff, keeping] at skipping
            cases skipping
    | error rejection => rw [(create_eq_error_iff _ _ _ _).mp keeping]

-- A comment alone, after a label and after an instruction: kept, they are tokens.
example :
    (Program.ofSource .keep "; count\n:loop # again\nadd 1 ; up").lines.map Line.kinds =
        [[.comment], [.label, .comment], [.instruction, .integer, .comment]] ∧
      ((create {} (.ofSource .keep "; count\n:loop # again\nadd 1 ; up") .standard).toOption.any
        fun made => (made.after [.step]).isTerminated) = true := by
  decide +kernel

end Interpreter

end PinMachine
