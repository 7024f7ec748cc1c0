import PinMachine.Proofs.Catalog.Requests
import PinMachine.Proofs.Interpreter.Invariant
import PinMachine.Proofs.Interpreter.Lockstep

/-!
What pins can influence. The bits on the pins are seen by the operation that loads them
and by no other; even whether a write succeeds depends on the number of pins alone. So the
steps of a program without loads give the same results and states, but for the pins,
whatever a host does to the pins between the steps. In turn, no step changes the input side,
which is left to the host, and the host changes nothing but the pins.
-/

namespace PinMachine

namespace Pins

variable {one other : Pins}

theorem writeRange_inputs (pins written : Pins) (range : PinRange) (bits : List Bool)
    (succeeds : pins.writeRange range bits = .ok written) : written.inputs = pins.inputs := by
  obtain ⟨_first, _last, _width, ⟨_empty, rfl⟩ | ⟨_some_bit, rfl⟩⟩ :=
    pins.writeRange_cases written range bits succeeds
  · rfl
  · rfl

theorem writeRange_of_count (same : one.count = other.count) (range : PinRange)
    (bits : List Bool) :
    (one.writeRange range bits).map (fun _ => ()) =
      (other.writeRange range bits).map fun _ => () := by
  have checked : one.checkRange range = other.checkRange range := by
    simp only [checkRange, checkIndex, same]
  unfold writeRange
  rw [checked]
  cases other.checkRange range with
  | error fault => rfl
  | ok passed =>
      by_cases width : bits.length = range.count
      · cases bits with
        | nil => simp [width, bind, Except.bind, pure, Except.pure, Except.map]
        | cons bit rest => simp [width, bind, Except.bind, pure, Except.pure, Except.map]
      · simp [width, bind, Except.bind, throw, throwThe, MonadExceptOf.throw, Except.map]

end Pins

/-- Two machines in the same state, but for the bits on their pins. -/
structure Machine.SameButPins (one other : Machine) : Prop where
  program : one.program = other.program
  registers : one.registers = other.registers
  pinCount : one.pins.count = other.pins.count
  stack : one.stack = other.stack
  flow : one.flow = other.flow

/-- The request does not look at the bits on pins. -/
def Request.Blind (request : Request) : Prop :=
  ∀ range, request ≠ .pins range

namespace Machine

variable {one other : Machine}

theorem sameButPins_sharesCalls : SharesCalls SameButPins where
  program := fun same => Program.agrees_of_eq same.program
  flow := fun same => same.flow
  reflow := fun same _flow => { same with flow := rfl }
  registers := fun same => same.registers
  stack := fun same => same.stack
  store := fun same _registers => { same with registers := rfl }
  restack := fun same _stack => { same with stack := rfl }

theorem SameButPins.setPins (same : one.SameButPins other) (range : PinRange)
    (bits : List Bool) : ServesAlike SameButPins one other (.setPins range bits) := by
  have alike := Pins.writeRange_of_count same.pinCount range bits
  simp only [ServesAlike, serve, Machine.setPins]
  cases first : one.pins.writeRange range bits with
  | error fault =>
      cases second : other.pins.writeRange range bits with
      | error fault =>
          rw [first, second] at alike
          cases alike
          exact ⟨rfl, same⟩
      | ok written =>
          rw [first, second] at alike
          cases alike
  | ok written =>
      cases second : other.pins.writeRange range bits with
      | error fault =>
          rw [first, second] at alike
          cases alike
      | ok alsoWritten =>
          refine ⟨rfl, { same with pinCount := ?_ }⟩
          have kept := Pins.writeRange_inputs _ _ range bits first
          have alsoKept := Pins.writeRange_inputs _ _ range bits second
          unfold Pins.count at *
          rw [kept, alsoKept]
          exact same.pinCount

theorem SameButPins.serve (same : one.SameButPins other) (request : Request)
    (blind : request.Blind) : ServesAlike SameButPins one other request := by
  cases request with
  | setPins range bits => exact same.setPins range bits
  | pins range => exact False.elim (blind range rfl)
  | _ => exact sameButPins_sharesCalls.serve same _ rfl

theorem Served.inputs {machine after : Machine} (served : Served machine after) :
    after.pins.inputs = machine.pins.inputs := by
  cases served with
  | drove range bits pins written => exact Pins.writeRange_inputs _ _ range bits written
  | _ => rfl

end Machine

namespace Interpreter

/-- Two interpreters in the same state, but for the bits on their pins. -/
structure SameButPins (one other : Interpreter) : Prop where
  config : one.config = other.config
  dispatch : one.dispatch = other.dispatch
  machine : one.machine.SameButPins other.machine
  diagnostics : one.diagnostics = other.diagnostics
  pendingSteps : one.pendingSteps = other.pendingSteps

/-- No line looks at the bits on pins. -/
def NeverLoads (interpreter : Interpreter) : Prop :=
  ∀ (index : Nat) (entry : Dispatch), interpreter.dispatch[index]? = some (some entry) →
    (entry.behavior entry.arguments).AllRequests Request.Blind

variable {one other start middle reached : Interpreter}

theorem sameButPins_refl (interpreter : Interpreter) : interpreter.SameButPins interpreter :=
  ⟨rfl, rfl, ⟨rfl, rfl, rfl, rfl, rfl⟩, rfl, rfl⟩

theorem SameButPins.symm (same : one.SameButPins other) : other.SameButPins one where
  config := same.config.symm
  dispatch := same.dispatch.symm
  machine :=
    { program := same.machine.program.symm
      registers := same.machine.registers.symm
      pinCount := same.machine.pinCount.symm
      stack := same.machine.stack.symm
      flow := same.machine.flow.symm }
  diagnostics := same.diagnostics.symm
  pendingSteps := same.pendingSteps.symm

theorem SameButPins.trans (first : one.SameButPins middle) (second : middle.SameButPins other) :
    one.SameButPins other where
  config := first.config.trans second.config
  dispatch := first.dispatch.trans second.dispatch
  machine :=
    { program := first.machine.program.trans second.machine.program
      registers := first.machine.registers.trans second.machine.registers
      pinCount := first.machine.pinCount.trans second.machine.pinCount
      stack := first.machine.stack.trans second.machine.stack
      flow := first.machine.flow.trans second.machine.flow }
  diagnostics := first.diagnostics.trans second.diagnostics
  pendingSteps := first.pendingSteps.trans second.pendingSteps

theorem SameButPins.lockstep (same : one.SameButPins other) :
    Lockstep Machine.SameButPins one other :=
  { same with steps := congrArg Config.steps same.config }

theorem SameButPins.step (same : one.SameButPins other) (never : one.NeverLoads) :
    StepsAlike SameButPins one.step other.step := by
  have shares := Machine.sameButPins_sharesCalls.toSharesFlow
  have stepped := same.lockstep.step shares (by
    intro _executing entry found focused
    exact Action.perform_alike shares (fun _one _other request holds => holds.serve request)
      _ (never _ entry found) _ _ focused)
  refine ⟨stepped.result, stepped.trace, { stepped.interpreter with config := ?_ }⟩
  rw [step_config, step_config, same.config]

theorem sameButPins_obey_pins (interpreter : Interpreter) (operation : Pins.Operation) :
    (interpreter.obey (.pins operation)).interpreter.SameButPins interpreter :=
  { sameButPins_refl interpreter with
    machine := { (sameButPins_refl interpreter).machine with
      pinCount := (interpreter.machine.pins.operated operation).count_eq } }

theorem NeverLoads.of_dispatch (never : one.NeverLoads) (same : other.dispatch = one.dispatch) :
    other.NeverLoads := by
  unfold NeverLoads
  rw [same]
  exact never

theorem after_dispatch (interpreter : Interpreter) (commands : List Command) :
    (interpreter.after commands).dispatch = interpreter.dispatch := by
  apply after_preserves fun reached => reached.dispatch = interpreter.dispatch
  · intro reached same
    rw [step_dispatch, same]
  · intro reached operation same
    exact same
  · rfl

/-- The results of the steps of a run. -/
def runResults : Nat → Interpreter → List (Except Fault Unit)
  | 0, _ => []
  | left + 1, interpreter =>
      if interpreter.isTerminated then []
      else
        interpreter.step.result ::
          match interpreter.step.result with
          | .ok _ => runResults left interpreter.step.interpreter
          | .error _ => []

def commandResults (interpreter : Interpreter) : Command → List (Except Fault Unit)
  | .step => [interpreter.step.result]
  | .run limit => runResults limit interpreter
  | .pins _ => []

/-- The results of all steps that a session takes, in order. -/
def stepResults : Interpreter → List Command → List (Except Fault Unit)
  | _, [] => []
  | interpreter, command :: rest =>
      interpreter.commandResults command ++
        stepResults (interpreter.obey command).interpreter rest

theorem stepResults_append (interpreter : Interpreter) (earlier later : List Command) :
    interpreter.stepResults (earlier ++ later) =
      interpreter.stepResults earlier ++ (interpreter.after earlier).stepResults later := by
  induction earlier generalizing interpreter with
  | nil => rfl
  | cons command rest ih =>
      simp only [List.cons_append, stepResults, ih, List.append_assoc]
      rfl

/-! ### Sessions without their pin operations -/

/-- As many steps as there are results, and nothing else, have the same results and lead
to the same state but for the pins. -/
def Retraced (start : Interpreter) (results : List (Except Fault Unit))
    (reached : Interpreter) : Prop :=
  start.stepResults (List.replicate results.length .step) = results ∧
    (start.after (List.replicate results.length .step)).SameButPins reached

theorem Retraced.cons {results : List (Except Fault Unit)}
    (retraced : start.step.interpreter.Retraced results reached) :
    start.Retraced (start.step.result :: results) reached := by
  obtain ⟨same, leads⟩ := retraced
  refine ⟨?_, leads⟩
  rw [List.length_cons, List.replicate_succ]
  change start.step.result :: start.step.interpreter.stepResults _ = _
  rw [same]

theorem Retraced.append {earlier later : List (Except Fault Unit)}
    (first : start.Retraced earlier middle)
    (second : (start.after (List.replicate earlier.length .step)).Retraced later reached) :
    start.Retraced (earlier ++ later) reached := by
  unfold Retraced
  rw [List.length_append, List.replicate_add, stepResults_append, first.1, second.1]
  refine ⟨rfl, ?_⟩
  have leads := second.2
  unfold after at leads ⊢
  rw [List.foldl_append]
  exact leads

theorem SameButPins.retraced_run (same : start.SameButPins reached) (never : start.NeverLoads)
    (taken : Nat) (traces : List Trace) (left : Nat) :
    start.Retraced (runResults left reached) (runFrom taken traces left reached).interpreter := by
  induction left generalizing start reached taken traces with
  | zero => exact ⟨rfl, same⟩
  | succ left ih =>
      unfold runResults Interpreter.runFrom
      by_cases ended : reached.isTerminated
      · rw [if_pos ended, if_pos ended]
        exact ⟨rfl, same⟩
      · rw [if_neg ended, if_neg ended]
        have stepped := same.step never
        rw [← stepped.result]
        apply Retraced.cons
        simp only [← stepped.result]
        cases start.step.result with
        | ok value =>
            exact ih stepped.interpreter (never.of_dispatch (step_dispatch start)) _ _
        | error fault => exact ⟨rfl, stepped.interpreter⟩

/-- Leaving the pin operations out of a session changes nothing but the pins. -/
theorem SameButPins.retraced (same : start.SameButPins reached) (never : start.NeverLoads)
    (commands : List Command) :
    start.Retraced (reached.stepResults commands) (reached.after commands) := by
  induction commands generalizing start reached with
  | nil => exact ⟨rfl, same⟩
  | cons command rest ih =>
      have first : start.Retraced (reached.commandResults command)
          (reached.obey command).interpreter := by
        cases command with
        | step =>
            have stepped := same.step never
            simp only [commandResults]
            rw [← stepped.result]
            exact Retraced.cons ⟨rfl, stepped.interpreter⟩
        | run limit => exact same.retraced_run never 0 [] limit
        | pins operation => exact ⟨rfl, same.trans (reached.sameButPins_obey_pins operation).symm⟩
      apply first.append
      exact ih first.2 (never.of_dispatch (start.after_dispatch _))

variable {config : Config} {program : Program} {catalog : Catalog} {interpreter : Interpreter}

theorem Steady.performLine_inputs (steady : interpreter.Steady config program catalog) :
    interpreter.performLine.machine.pins.inputs = interpreter.machine.pins.inputs := by
  rcases found : interpreter.dispatch[interpreter.machine.flow.current]? with
    _ | (_ | entry)
  · simp only [Interpreter.performLine, found]
  · simp only [Interpreter.performLine, found]
  · rw [interpreter.performLine_eq_perform entry found]
    -- What a request can do is known of shaped machines, so the shape is carried along.
    have kept := Action.effect_preserves
      (fun machine => machine.Shaped config ∧
        machine.pins.inputs = interpreter.machine.pins.inputs)
      (fun machine request holds =>
        have served := holds.1.served request
        ⟨holds.1.of_served _ served, served.inputs.trans holds.2⟩)
      (entry.behavior entry.arguments) interpreter.machine ⟨steady.shaped, rfl⟩
    exact kept.2

theorem Steady.step_inputs (steady : interpreter.Steady config program catalog) :
    interpreter.step.interpreter.machine.pins.inputs = interpreter.machine.pins.inputs := by
  unfold Interpreter.step
  cases interpreter.phase with
  | faulted => rfl
  | terminated => rfl
  | sleeping => rfl
  | waiting => rfl
  | executing =>
      change interpreter.focus.executeLine.interpreter.machine.pins.inputs = _
      rw [executeLine_machine]
      exact steady.focus.performLine_inputs

/-! ### Programs without loads -/

/-- The operation that looks at pins has a name of its own. -/
theorem neverLoads_of_create (config : Config) (program : Program) (made : Interpreter)
    (accepted : create config program .standard = .ok made)
    (noLoads : ∀ line ∈ program.lines, line.instructionName? ≠ some "ldp") :
    made.NeverLoads := by
  obtain ⟨_valid, clean, rfl⟩ := create_eq_ok config program .standard made accepted
  intro index entry found
  obtain ⟨line, member, operation, instruction, applies, rfl⟩ :=
    program.dispatch_applies config clean index entry found
  apply applies.asks.mono
  rintro request asks range rfl
  apply noLoads line member
  rw [instruction, asks.1]
  rfl

/-- Without loads, pins cannot influence a program: two sessions that take the same number
of steps get the same results from them and reach the same state but for the pins. And in
every session of every program, a step leaves the input side as it is, and a host changes
nothing but the pins. -/
theorem pins_reach_loads_only (config : Config) (mode : CommentMode) (source : String) :
    (∀ made, create config (.ofSource mode source) .standard = .ok made →
      (∀ line ∈ (Program.ofSource mode source).lines, line.instructionName? ≠ some "ldp") →
      ∀ one other : List Command,
        (made.stepResults one).length = (made.stepResults other).length →
        made.stepResults one = made.stepResults other ∧
          (made.after one).SameButPins (made.after other)) ∧
    ∀ catalog made, create config (.ofSource mode source) catalog = .ok made →
      ∀ commands : List Command,
        (made.after commands).step.interpreter.machine.pins.inputs =
          (made.after commands).machine.pins.inputs ∧
        ∀ operation, ((made.after commands).obey (.pins operation)).interpreter.SameButPins
          (made.after commands) := by
  constructor
  · intro made accepted noLoads one other count
    have never := neverLoads_of_create config _ made accepted noLoads
    -- Each session is compared with the one that has its steps only, the same for both.
    obtain ⟨oneResults, oneLeads⟩ := (sameButPins_refl made).retraced never one
    obtain ⟨otherResults, otherLeads⟩ := (sameButPins_refl made).retraced never other
    rw [← count] at otherResults otherLeads
    exact ⟨oneResults.symm.trans otherResults, oneLeads.symm.trans otherLeads⟩
  · intro catalog made accepted commands
    have steady := steady_of_session config mode source catalog made accepted commands
    exact ⟨steady.step_inputs, (made.after commands).sameButPins_obey_pins⟩

/-- One host leaves the pins alone, another one drives them, also where there are none; a
call, a write to pins and a division by zero go on as before. -/
theorem pins_reach_loads_only_driven :
    ∃ made : Interpreter,
      create { pinCount := 2, maxStackDepth := 1 }
        (.ofSource .skip "jsr fn\n:fn\nstp .p0 1\ndiv 0\nret\nret") .standard = .ok made ∧
      (made.after [.run 4]).machine.pins.inputs ≠
        (made.after [.step, .pins (.setInputs [true, true]), .step, .pins (.setOutput 0 false),
          .pins (.setInput 9 true), .run 2]).machine.pins.inputs ∧
      made.stepResults [.run 4] =
        made.stepResults [.step, .pins (.setInputs [true, true]), .step,
          .pins (.setOutput 0 false), .pins (.setInput 9 true), .run 2] ∧
      (made.after [.run 4]).SameButPins
        (made.after [.step, .pins (.setInputs [true, true]), .step, .pins (.setOutput 0 false),
          .pins (.setInput 9 true), .run 2]) := by
  obtain ⟨made, accepted, tested⟩ := exists_create_of_any { pinCount := 2, maxStackDepth := 1 }
    (.ofSource .skip "jsr fn\n:fn\nstp .p0 1\ndiv 0\nret\nret") .standard
    (fun made =>
      (made.after [.run 4]).machine.pins.inputs !=
        (made.after [.step, .pins (.setInputs [true, true]), .step, .pins (.setOutput 0 false),
          .pins (.setInput 9 true), .run 2]).machine.pins.inputs &&
      (made.stepResults [.run 4]).length ==
        (made.stepResults [.step, .pins (.setInputs [true, true]), .step,
          .pins (.setOutput 0 false), .pins (.setInput 9 true), .run 2]).length)
    (by decide +kernel)
  simp only [Bool.and_eq_true, bne_iff_ne, beq_iff_eq] at tested
  have same := (pins_reach_loads_only _ _ _).1 made accepted (by decide +kernel) _ _ tested.2
  exact ⟨made, accepted, tested.1, same⟩

end Interpreter

end PinMachine
