import PinMachine.Interpreter.Session
import PinMachine.Proofs.Action.Effect

/-!
Events of a session. What a session does to the machine is a sequence of events:
requests of the lines being executed, lines that are entered and left, idle steps
and pin operations of the host. Every step, run and command is given with the
events that it consists of, so that a statement about all sequences of events is
one about all sessions, also in the middle of a line.
-/

namespace PinMachine

/-- One thing that happens to a machine. -/
inductive Event where
  /-- The line being executed asks for something. -/
  | request (request : Request)
  | enterLine
  /-- The current line is over and the next one is chosen. -/
  | leaveLine (result : Except Fault Unit)
  | idle
  | pins (operation : Pins.Operation)

namespace Machine

def undergo (machine : Machine) : Event → Machine
  | .request request => (machine.serve request).2
  | .enterLine => { machine with flow := machine.flow.focus }
  | .leaveLine result => Interpreter.chooseNext machine result
  | .idle => { machine with flow := machine.flow.idle }
  | .pins operation => { machine with pins := (machine.pins.operate operation).2 }

def after (machine : Machine) (events : List Event) : Machine :=
  events.foldl undergo machine

@[simp]
theorem after_nil (machine : Machine) : machine.after [] = machine := rfl

@[simp]
theorem after_cons (machine : Machine) (event : Event) (events : List Event) :
    machine.after (event :: events) = (machine.undergo event).after events := rfl

@[simp]
theorem after_append (machine : Machine) (earlier later : List Event) :
    machine.after (earlier ++ later) = (machine.after earlier).after later :=
  List.foldl_append

theorem after_preserves (property : Machine → Prop)
    (undergone : ∀ machine event, property machine → property (machine.undergo event))
    (machine : Machine) (events : List Event) (holds : property machine) :
    property (machine.after events) := by
  induction events generalizing machine with
  | nil => exact holds
  | cons event events ih => exact ih _ (undergone machine event holds)

end Machine

theorem Action.effect_machine {α : Type} (action : Action α) (machine : Machine) :
    (action.effect machine).2 =
      machine.after ((action.requests machine).map Event.request) := by
  induction action generalizing machine with
  | done result => rfl
  | raise fault => rfl
  | call request resume ih =>
      rw [effect_call]
      exact ih _ _
  | tell reply rest ih => exact ih machine

namespace Interpreter

def lineRequests (interpreter : Interpreter) : List Request :=
  match interpreter.dispatch[interpreter.machine.flow.current]? with
  | some (some dispatch) =>
      (dispatch.behavior dispatch.arguments).requests interpreter.machine
  | _ => []

def stepEvents (interpreter : Interpreter) : List Event :=
  match interpreter.phase with
  | .faulted => []
  | .terminated => []
  | .sleeping => [.idle]
  | .waiting => [.enterLine]
  | .executing =>
      .enterLine :: interpreter.focus.lineRequests.map .request ++
        [.leaveLine interpreter.focus.performLine.result]

def runEvents : Nat → Interpreter → List Event
  | 0, _ => []
  | left + 1, interpreter =>
      if interpreter.isTerminated then []
      else
        interpreter.stepEvents ++
          match interpreter.step.result with
          | .ok _ => runEvents left interpreter.step.interpreter
          | .error _ => []

def commandEvents (interpreter : Interpreter) : Command → List Event
  | .step => interpreter.stepEvents
  | .run limit => runEvents limit interpreter
  | .pins operation => [.pins operation]

/-- A line that has a dispatch entry does what the entry says. -/
theorem performLine_eq_perform (interpreter : Interpreter) (dispatch : Dispatch)
    (found : interpreter.dispatch[interpreter.machine.flow.current]? =
      some (some dispatch)) :
    interpreter.performLine =
      (dispatch.behavior dispatch.arguments).perform interpreter.machine := by
  simp only [performLine, found]

theorem performLine_machine (interpreter : Interpreter) :
    interpreter.performLine.machine =
      interpreter.machine.after (interpreter.lineRequests.map Event.request) := by
  rcases found : interpreter.dispatch[interpreter.machine.flow.current]? with
    _ | (_ | dispatch)
  · simp only [performLine, lineRequests, found, List.map_nil, Machine.after_nil]
  · simp only [performLine, lineRequests, found, List.map_nil, Machine.after_nil]
  · rw [interpreter.performLine_eq_perform dispatch found]
    simp only [lineRequests, found]
    exact Action.effect_machine _ interpreter.machine

theorem executeLine_machine (interpreter : Interpreter) :
    interpreter.executeLine.interpreter.machine =
      chooseNext interpreter.performLine.machine interpreter.performLine.result := by
  cases result : interpreter.performLine.result <;> simp only [executeLine, result]

theorem step_machine (interpreter : Interpreter) :
    interpreter.step.interpreter.machine =
      interpreter.machine.after interpreter.stepEvents := by
  unfold step stepEvents
  cases interpreter.phase with
  | faulted => rfl
  | terminated => rfl
  | sleeping => rfl
  | waiting => rfl
  | executing =>
      change interpreter.focus.executeLine.interpreter.machine = _
      rw [executeLine_machine, performLine_machine, List.cons_append, Machine.after_cons,
        Machine.after_append]
      rfl

theorem runFrom_machine (taken : Nat) (traces : List Trace) (left : Nat)
    (interpreter : Interpreter) :
    (runFrom taken traces left interpreter).interpreter.machine =
      interpreter.machine.after (runEvents left interpreter) := by
  -- The count and the traces grow from step to step; the machine does not depend on them.
  induction left generalizing taken traces interpreter with
  | zero => rfl
  | succ left ih =>
      unfold runFrom runEvents
      by_cases ended : interpreter.isTerminated
      · rw [if_pos ended, if_pos ended]
        rfl
      · rw [if_neg ended, if_neg ended]
        cases result : interpreter.step.result with
        | ok value =>
            simp only [result, Machine.after_append, ← step_machine]
            exact ih _ _ _
        | error fault =>
            simp only [result, List.append_nil, ← step_machine]

theorem obey_machine (interpreter : Interpreter) (command : Command) :
    (interpreter.obey command).interpreter.machine =
      interpreter.machine.after (interpreter.commandEvents command) := by
  cases command with
  | step => exact interpreter.step_machine
  | run limit => exact runFrom_machine 0 [] limit interpreter
  | pins operation => rfl

def after (interpreter : Interpreter) (commands : List Command) : Interpreter :=
  commands.foldl (fun reached command => (reached.obey command).interpreter) interpreter

def sessionEvents : Interpreter → List Command → List Event
  | _, [] => []
  | interpreter, command :: rest =>
      interpreter.commandEvents command ++
        sessionEvents (interpreter.obey command).interpreter rest

theorem after_machine (interpreter : Interpreter) (commands : List Command) :
    (interpreter.after commands).machine =
      interpreter.machine.after (interpreter.sessionEvents commands) := by
  induction commands generalizing interpreter with
  | nil => rfl
  | cons command rest ih =>
      change ((interpreter.obey command).interpreter.after rest).machine = _
      rw [ih, obey_machine]
      exact (Machine.after_append _ _ _).symm

/-- A session passes through the machine, perhaps in the middle of a line. -/
def Passes (interpreter : Interpreter) (machine : Machine) : Prop :=
  ∃ commands events, events <+: interpreter.sessionEvents commands ∧
    machine = interpreter.machine.after events

theorem sessionEvents_append (interpreter : Interpreter) (earlier later : List Command) :
    interpreter.sessionEvents (earlier ++ later) =
      interpreter.sessionEvents earlier ++ (interpreter.after earlier).sessionEvents later := by
  induction earlier generalizing interpreter with
  | nil => rfl
  | cons command rest ih =>
      simp only [List.cons_append, sessionEvents, ih, List.append_assoc]
      rfl

theorem passes_focus (interpreter : Interpreter) (commands : List Command)
    (executing : (interpreter.after commands).phase = .executing) :
    interpreter.Passes (interpreter.after commands).focus.machine := by
  refine ⟨commands ++ [.step], interpreter.sessionEvents commands ++ [.enterLine], ?_, ?_⟩
  · rw [sessionEvents_append, List.prefix_append_right_inj]
    simp only [sessionEvents, commandEvents, stepEvents, executing, List.append_nil,
      List.cons_append]
    exact ⟨_, rfl⟩
  · rw [Machine.after_append, ← after_machine]
    rfl

theorem after_preserves (property : Interpreter → Prop)
    (stepped : ∀ interpreter, property interpreter → property interpreter.step.interpreter)
    (driven : ∀ interpreter operation, property interpreter →
      property (interpreter.obey (.pins operation)).interpreter)
    (interpreter : Interpreter) (commands : List Command) (holds : property interpreter) :
    property (interpreter.after commands) := by
  have ran : ∀ (taken : Nat) (traces : List Trace) (left : Nat) (start : Interpreter),
      property start → property (runFrom taken traces left start).interpreter := by
    intro taken traces left
    induction left generalizing taken traces with
    | zero => intro start holds; exact holds
    | succ left ih =>
        intro start holds
        unfold runFrom
        by_cases ended : start.isTerminated
        · rw [if_pos ended]
          exact holds
        · rw [if_neg ended]
          cases result : start.step.result with
          | ok value =>
              simp only [result]
              exact ih _ _ _ (stepped start holds)
          | error fault =>
              simp only [result]
              exact stepped start holds
  induction commands generalizing interpreter with
  | nil => exact holds
  | cons command rest ih =>
      apply ih
      cases command with
      | step => exact stepped interpreter holds
      | run limit => exact ran 0 [] limit interpreter holds
      | pins operation => exact driven interpreter operation holds

end Interpreter

end PinMachine
