import PinMachine.Proofs.Interpreter.Event
import PinMachine.Proofs.Program.Comments

/-!
Two interpreters side by side. Whoever relates two machines has to say why they answer
the same requests alike; that actions, steps, runs and sessions are then alike as well is
proved here once, for every relation of machines that share their flow.
-/

namespace PinMachine

namespace Program

variable {one other : Program}

theorem agrees_of_eq (same : one = other) : one.Agrees other := by
  subst same
  exact ⟨rfl, rfl, rfl⟩

theorem Agrees.nextInstruction? (agrees : one.Agrees other) (start : Nat) :
    one.nextInstruction? start = other.nextInstruction? start := by
  unfold Program.nextInstruction?
  rw [agrees.following]

theorem Agrees.labelLine? (agrees : one.Agrees other) (name : String) :
    one.labelLine? name = other.labelLine? name := by
  unfold Program.labelLine?
  rw [agrees.labels]

theorem Agrees.endColumn (agrees : one.Agrees other) (index : Nat) :
    (one.line? index).map Line.endColumn = (other.line? index).map Line.endColumn := by
  have texts : (one.line? index).map Line.text = (other.line? index).map Line.text := by
    unfold Program.line?
    rw [← List.getElem?_map, ← List.getElem?_map, agrees.texts]
  have columns := congrArg (Option.map fun text : List Char => text.length - 1) texts
  rw [Option.map_map, Option.map_map] at columns
  exact columns

end Program

/-- Related machines stand at the same place of programs that agree, and stay related when
they move on together. -/
structure SharesFlow (related : Machine → Machine → Prop) : Prop where
  program : ∀ {one other}, related one other → one.program.Agrees other.program
  flow : ∀ {one other}, related one other → one.flow = other.flow
  reflow : ∀ {one other}, related one other → ∀ flow,
    related { one with flow := flow } { other with flow := flow }

/-- Two machines answer a request alike and are related afterwards. -/
def ServesAlike (related : Machine → Machine → Prop) (one other : Machine)
    (request : Request) : Prop :=
  (one.serve request).1 = (other.serve request).1 ∧
    related (one.serve request).2 (other.serve request).2

/-- The request looks at the flow and the program only. -/
def Request.steers : Request → Bool
  | .currentLine | .jump _ | .jumpToLabel _ | .sleep _ | .labelAddress _ => true
  | _ => false

namespace SharesFlow

variable {related : Machine → Machine → Prop} {one other : Machine}

theorem labelAddress? (shares : SharesFlow related) (holds : related one other)
    (label : String) : one.labelAddress? label = other.labelAddress? label := by
  unfold Machine.labelAddress?
  rw [(shares.program holds).labelLine?]

theorem jump (shares : SharesFlow related) (holds : related one other) (address : Nat) :
    related (one.jump address) (other.jump address) := by
  unfold Machine.jump Flow.jump
  rw [shares.flow holds, (shares.program holds).nextInstruction?]
  exact shares.reflow holds _

theorem jumpToLabel (shares : SharesFlow related) (holds : related one other)
    (label : String) : related (one.jumpToLabel label) (other.jumpToLabel label) := by
  unfold Machine.jumpToLabel
  rw [shares.labelAddress? holds]
  cases other.labelAddress? label with
  | some address => exact shares.jump holds address
  | none =>
      simp only [shares.flow holds]
      exact shares.reflow holds _

theorem servesAlike (shares : SharesFlow related) (holds : related one other)
    (request : Request) (steers : request.steers = true) :
    ServesAlike related one other request := by
  cases request with
  | currentLine => exact ⟨congrArg Flow.current (shares.flow holds), holds⟩
  | jump address => exact ⟨rfl, shares.jump holds address⟩
  | jumpToLabel label => exact ⟨rfl, shares.jumpToLabel holds label⟩
  | sleep steps =>
      refine ⟨rfl, ?_⟩
      simp only [Machine.serve, Machine.sleep, shares.flow holds]
      exact shares.reflow holds _
  | labelAddress label => exact ⟨shares.labelAddress? holds label, holds⟩
  | _ => cases steers

theorem requestJournal (shares : SharesFlow related) (holds : related one other)
    (request : Request) : one.requestJournal request = other.requestJournal request := by
  cases request with
  | jumpToLabel label => simp only [Machine.requestJournal, shares.labelAddress? holds]
  | _ => rfl

theorem chooseNext (shares : SharesFlow related) (holds : related one other)
    (result : Except Fault Unit) :
    related (Interpreter.chooseNext one result) (Interpreter.chooseNext other result) := by
  unfold Interpreter.chooseNext Flow.advance
  rw [shares.flow holds, (shares.program holds).nextInstruction?]
  exact shares.reflow holds _

end SharesFlow

/-- Related machines have the same registers and open calls besides, and stay related when
these change together. -/
structure SharesCalls (related : Machine → Machine → Prop) : Prop
    extends SharesFlow related where
  registers : ∀ {one other}, related one other → one.registers = other.registers
  stack : ∀ {one other}, related one other → one.stack = other.stack
  store : ∀ {one other}, related one other → ∀ registers,
    related { one with registers := registers } { other with registers := registers }
  restack : ∀ {one other}, related one other → ∀ stack,
    related { one with stack := stack } { other with stack := stack }

/-- The request is about pins. -/
def Request.drives : Request → Bool
  | .setPins _ _ | .pins _ => true
  | _ => false

namespace SharesCalls

variable {related : Machine → Machine → Prop} {one other : Machine}

theorem setRegister (shares : SharesCalls related) (holds : related one other) (name : String)
    (value : Word) : ServesAlike related one other (.setRegister name value) := by
  simp only [ServesAlike, Machine.serve, Machine.setRegister, shares.registers holds]
  cases other.registers.set name value with
  | ok registers => exact ⟨rfl, shares.store holds registers⟩
  | error fault => exact ⟨rfl, holds⟩

theorem pushFrame (shares : SharesCalls related) (holds : related one other) :
    ServesAlike related one other .pushFrame := by
  simp only [ServesAlike, Machine.serve, Machine.pushFrame, shares.registers holds,
    shares.stack holds, shares.flow holds]
  split
  · exact ⟨rfl, holds⟩
  · cases other.stack.push ⟨other.registers.stackWords, other.flow.current + 1⟩ with
    | error fault => exact ⟨rfl, holds⟩
    | ok stack =>
        have cleared := shares.store holds other.registers.clearStack
        have opened := shares.reflow (shares.restack cleared stack) other.flow
        exact shares.setRegister opened Machine.returnAddressRegister
          (BitVec.ofNat 16 (other.flow.current + 1))

theorem popFrame (shares : SharesCalls related) (holds : related one other) :
    ServesAlike related one other .popFrame := by
  simp only [ServesAlike, Machine.serve, Machine.popFrame, shares.registers holds,
    shares.stack holds]
  cases other.stack.pop with
  | error fault => exact ⟨rfl, holds⟩
  | ok popped =>
      obtain ⟨frame, stack⟩ := popped
      have closed := shares.restack
        (shares.store holds (other.registers.restoreStack frame.saved)) stack
      obtain ⟨answer, restored⟩ := shares.setRegister closed Machine.returnAddressRegister
        (BitVec.ofNat 16 frame.returnAddress)
      exact ⟨congrArg (Except.map fun _ => frame.returnAddress) answer, restored⟩

theorem serve (shares : SharesCalls related) (holds : related one other) (request : Request)
    (free : request.drives = false) : ServesAlike related one other request := by
  cases request with
  | pushFrame => exact shares.pushFrame holds
  | popFrame => exact shares.popFrame holds
  | register name => exact ⟨congrArg (·.get name) (shares.registers holds), holds⟩
  | setRegister name value => exact shares.setRegister holds name value
  | setPins range bits => cases free
  | pins range => cases free
  | _ => exact shares.servesAlike holds _ rfl

end SharesCalls

/-- Two outcomes with the same result and trace, and related machines. -/
structure OutcomesAlike {α : Type} (related : Machine → Machine → Prop)
    (one other : Action.Outcome α) : Prop where
  result : one.result = other.result
  trace : one.trace = other.trace
  machine : related one.machine other.machine

variable {related : Machine → Machine → Prop}

theorem Action.perform_call_alike {α : Type} (shares : SharesFlow related) {one other : Machine}
    (holds : related one other) (request : Request) (resume : request.Answer → Action α)
    (served : ServesAlike related one other request)
    (later : ∀ answer one other, related one other →
      OutcomesAlike related ((resume answer).perform one) ((resume answer).perform other)) :
    OutcomesAlike related ((Action.call request resume).perform one)
      ((Action.call request resume).perform other) := by
  obtain ⟨answer, after⟩ := served
  have resumed := later (other.serve request).1 _ _ after
  simp only [Action.perform, answer, shares.requestJournal holds]
  exact ⟨resumed.result, by rw [resumed.trace], resumed.machine⟩

/-- What related machines do alike with every request that an action may make, they do
alike with the action. -/
theorem Action.perform_alike {α : Type} {admitted : Request → Prop}
    (shares : SharesFlow related)
    (served : ∀ one other request, related one other → admitted request →
      ServesAlike related one other request)
    (action : Action α) (asks : action.AllRequests admitted) (one other : Machine)
    (holds : related one other) :
    OutcomesAlike related (action.perform one) (action.perform other) := by
  induction action generalizing one other with
  | done result => exact ⟨rfl, rfl, holds⟩
  | raise fault => exact ⟨rfl, rfl, holds⟩
  | call request resume ih =>
      apply perform_call_alike shares holds
      · exact served one other request holds asks.1
      · intro answer
        exact ih answer (asks.2 answer)
  | tell reply next ih =>
      have later := ih asks one other holds
      simp only [Action.perform]
      exact ⟨later.result, by rw [later.trace], later.machine⟩

/-! ### Steps -/

namespace Interpreter

/-- Two interpreters at the same point of their runs, with related machines. -/
structure Lockstep (related : Machine → Machine → Prop) (one other : Interpreter) :
    Prop where
  steps : one.config.steps = other.config.steps
  dispatch : one.dispatch = other.dispatch
  machine : related one.machine other.machine
  diagnostics : one.diagnostics = other.diagnostics
  pendingSteps : one.pendingSteps = other.pendingSteps

variable {one other : Interpreter}

theorem Lockstep.isTerminated (lockstep : Lockstep related one other)
    (shares : SharesFlow related) : one.isTerminated = other.isTerminated :=
  congrArg Flow.isTerminated (shares.flow lockstep.machine)

theorem Lockstep.phase (lockstep : Lockstep related one other)
    (shares : SharesFlow related) : one.phase = other.phase := by
  unfold Interpreter.phase
  rw [lockstep.diagnostics, lockstep.isTerminated shares, shares.flow lockstep.machine,
    lockstep.pendingSteps, lockstep.steps]

theorem Lockstep.focus (lockstep : Lockstep related one other)
    (shares : SharesFlow related) : Lockstep related one.focus other.focus :=
  { lockstep with
    machine := by
      simp only [Interpreter.focus, shares.flow lockstep.machine]
      exact shares.reflow lockstep.machine _ }

theorem Lockstep.performLine (lockstep : Lockstep related one other)
    (shares : SharesFlow related)
    (performed : ∀ entry, one.dispatch[one.machine.flow.current]? = some (some entry) →
      OutcomesAlike related ((entry.behavior entry.arguments).perform one.machine)
        ((entry.behavior entry.arguments).perform other.machine)) :
    OutcomesAlike related one.performLine other.performLine := by
  simp only [Interpreter.performLine, ← lockstep.dispatch, ← shares.flow lockstep.machine]
  rcases found : one.dispatch[one.machine.flow.current]? with _ | (_ | entry)
  · exact ⟨rfl, rfl, lockstep.machine⟩
  · exact ⟨rfl, rfl, lockstep.machine⟩
  · exact performed entry found

theorem faultDiagnostic_of_agrees {one other : Program} (agrees : one.Agrees other)
    (line : Nat) (fault : Fault) :
    faultDiagnostic one line fault = faultDiagnostic other line fault := by
  unfold faultDiagnostic
  rw [agrees.endColumn]

/-- Two steps with the same result and trace, after which the interpreters are coupled. -/
structure StepsAlike (coupled : Interpreter → Interpreter → Prop) (one other : StepReport) :
    Prop where
  result : one.result = other.result
  trace : one.trace = other.trace
  interpreter : coupled one.interpreter other.interpreter

theorem Lockstep.executeLine (lockstep : Lockstep related one other)
    (shares : SharesFlow related)
    (line : OutcomesAlike related one.performLine other.performLine) :
    StepsAlike (Lockstep related) one.executeLine other.executeLine := by
  have machine := shares.chooseNext line.machine other.performLine.result
  have ending : lineTrace other.machine.flow.current
        (chooseNext one.performLine.machine other.performLine.result)
        other.performLine.result =
      lineTrace other.machine.flow.current
        (chooseNext other.performLine.machine other.performLine.result)
        other.performLine.result := by
    unfold lineTrace
    rw [shares.flow machine]
  simp only [Interpreter.executeLine, line.result, line.trace, shares.flow lockstep.machine,
    ending]
  generalize other.performLine.result = ended at machine
  cases ended with
  | ok value => exact ⟨rfl, rfl, { lockstep with machine := machine, pendingSteps := rfl }⟩
  | error fault =>
      refine ⟨rfl, rfl,
        { lockstep with machine := machine, pendingSteps := rfl, diagnostics := ?_ }⟩
      simp only [lockstep.diagnostics, faultDiagnostic_of_agrees (shares.program machine)]

/-- Steps are alike if the action of a line that is due is. -/
theorem Lockstep.step (lockstep : Lockstep related one other) (shares : SharesFlow related)
    (performed : one.phase = .executing → ∀ entry,
      one.focus.dispatch[one.focus.machine.flow.current]? = some (some entry) →
      related one.focus.machine other.focus.machine →
      OutcomesAlike related ((entry.behavior entry.arguments).perform one.focus.machine)
        ((entry.behavior entry.arguments).perform other.focus.machine)) :
    StepsAlike (Lockstep related) one.step other.step := by
  have focused := lockstep.focus shares
  unfold Interpreter.step
  rw [← lockstep.phase shares]
  cases phase : one.phase with
  | faulted => exact ⟨rfl, rfl, lockstep⟩
  | terminated => exact ⟨rfl, rfl, lockstep⟩
  | sleeping =>
      refine ⟨rfl, rfl, { lockstep with machine := ?_ }⟩
      simp only [shares.flow lockstep.machine]
      exact shares.reflow lockstep.machine _
  | waiting =>
      exact ⟨rfl, rfl, { focused with
        pendingSteps := congrArg (· + 1) lockstep.pendingSteps }⟩
  | executing =>
      apply focused.executeLine shares
      apply focused.performLine shares
      intro entry found
      exact performed phase entry found focused.machine

/-- What a host is told in a session, command by command. -/
def answers : Interpreter → List Command → List (Reply × Trace)
  | _, [] => []
  | interpreter, command :: rest =>
      ((interpreter.obey command).reply, (interpreter.obey command).trace) ::
        answers (interpreter.obey command).interpreter rest

/-- Coupled interpreters step alike as long as the first one fails in tolerated ways only,
and carry out alike the pin operations that are admitted. -/
structure Coupling (tolerated : Fault → Prop) (admitted : Pins.Operation → Prop)
    (coupled : Interpreter → Interpreter → Prop) : Prop where
  terminated : ∀ {one other}, coupled one other → one.isTerminated = other.isTerminated
  step : ∀ {one other}, coupled one other →
    (∀ fault, one.step.result = .error fault → tolerated fault) →
    StepsAlike coupled one.step other.step
  pins : ∀ {one other}, coupled one other → ∀ operation, admitted operation →
    (one.obey (.pins operation)).reply = (other.obey (.pins operation)).reply ∧
      coupled (one.obey (.pins operation)).interpreter
        (other.obey (.pins operation)).interpreter

namespace Coupling

variable {tolerated : Fault → Prop} {admitted : Pins.Operation → Prop}
  {coupled : Interpreter → Interpreter → Prop}

theorem runFrom (coupling : Coupling tolerated admitted coupled) (taken : Nat)
    (traces : List Trace) (left : Nat) (holds : coupled one other)
    (tolerable : ∀ fault, (runFrom taken traces left one).result = .error fault →
      tolerated fault) :
    (runFrom taken traces left one).result = (runFrom taken traces left other).result ∧
      (runFrom taken traces left one).trace = (runFrom taken traces left other).trace ∧
      coupled (runFrom taken traces left one).interpreter
        (runFrom taken traces left other).interpreter := by
  induction left generalizing taken traces one other with
  | zero => exact ⟨rfl, rfl, holds⟩
  | succ left ih =>
      unfold Interpreter.runFrom at tolerable ⊢
      rw [← coupling.terminated holds]
      by_cases ended : one.isTerminated
      · rw [if_pos ended, if_pos ended]
        exact ⟨rfl, rfl, holds⟩
      · rw [if_neg ended] at tolerable
        rw [if_neg ended, if_neg ended]
        -- A failing step ends the run, so its fault is the one that the run gives.
        have stepped : StepsAlike coupled one.step other.step := by
          apply coupling.step holds
          intro fault fails
          simp only [fails] at tolerable
          exact tolerable fault rfl
        simp only [← stepped.result, ← stepped.trace]
        cases result : one.step.result with
        | ok value =>
            simp only [result] at tolerable
            exact ih (taken + 1) (one.step.trace :: traces) stepped.interpreter tolerable
        | error fault => exact ⟨rfl, rfl, stepped.interpreter⟩

theorem obey (coupling : Coupling tolerated admitted coupled) (command : Command)
    (holds : coupled one other)
    (tolerable : ∀ fault, (one.obey command).reply = .error fault → tolerated fault)
    (admissible : ∀ operation, command = .pins operation → admitted operation) :
    (one.obey command).reply = (other.obey command).reply ∧
      (one.obey command).trace = (other.obey command).trace ∧
      coupled (one.obey command).interpreter (other.obey command).interpreter := by
  cases command with
  | step =>
      have stepped : StepsAlike coupled one.step other.step := by
        apply coupling.step holds
        intro fault fails
        apply tolerable
        simp only [Interpreter.obey, fails]
        rfl
      exact ⟨congrArg (Except.map fun _ => Datum.nothing) stepped.result, stepped.trace,
        stepped.interpreter⟩
  | run limit =>
      obtain ⟨result, trace, ran⟩ := coupling.runFrom 0 [] limit holds (by
        intro fault fails
        apply tolerable
        simp only [Interpreter.obey, Interpreter.run, fails]
        rfl)
      exact ⟨congrArg (Except.map Datum.number) result, trace, ran⟩
  | pins operation =>
      obtain ⟨reply, driven⟩ := coupling.pins holds operation (admissible operation rfl)
      exact ⟨reply, rfl, driven⟩

theorem session (coupling : Coupling tolerated admitted coupled) (commands : List Command)
    (holds : coupled one other)
    (tolerable : ∀ answer ∈ one.answers commands, ∀ fault, answer.1 = .error fault →
      tolerated fault)
    (admissible : ∀ operation, .pins operation ∈ commands → admitted operation) :
    one.answers commands = other.answers commands ∧
      coupled (one.after commands) (other.after commands) := by
  induction commands generalizing one other with
  | nil => exact ⟨rfl, holds⟩
  | cons command rest ih =>
      obtain ⟨reply, trace, obeyed⟩ := coupling.obey command holds
        (tolerable _ List.mem_cons_self)
        (fun operation same => admissible operation (same ▸ List.mem_cons_self))
      obtain ⟨answers, reached⟩ := ih obeyed
        (fun answer member => tolerable answer (List.mem_cons_of_mem _ member))
        (fun operation member => admissible operation (List.mem_cons_of_mem _ member))
      refine ⟨?_, reached⟩
      simp only [Interpreter.answers, reply, trace, answers]

end Coupling

end Interpreter

end PinMachine
