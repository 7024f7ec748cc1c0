import PinMachine.Proofs.Catalog.Safety
import PinMachine.Proofs.Interpreter.Sleep

/-!
Programs without jumps. A line that neither jumps nor moves the address of a label goes on
at the next instruction line, whatever it finds in the registers and pins; at worst it
divides by zero, which does not end the run. So a program of such lines executes each of its
instruction lines once, in order, and ends. How many steps this takes is known from the
program up to the idle steps that its lines ask for.
-/

namespace PinMachine

/-- The instructions that may go on elsewhere than at the next instruction line. -/
def transferNames : List String :=
  ["jmp", "beq", "bne", "blt", "bgt", "jsr", "ret", "rtt", "rtf"]

/-- The line has no instruction that may go on elsewhere, and moves no address of a label. -/
def Line.Straight (line : Line) : Prop :=
  ∀ name ∈ line.instructionName?, name ∉ transferNames ∧
    (name = "mov" → ∀ argument ∈ line.arguments, argument.kind ≠ .labelArgument)

instance (line : Line) : Decidable line.Straight :=
  inferInstanceAs (Decidable (∀ name ∈ line.instructionName?, name ∉ transferNames ∧
    (name = "mov" → ∀ argument ∈ line.arguments, argument.kind ≠ .labelArgument)))

def Program.StraightLine (program : Program) : Prop :=
  ∀ line ∈ program.lines, line.Straight

instance (program : Program) : Decidable program.StraightLine :=
  inferInstanceAs (Decidable (∀ line ∈ program.lines, line.Straight))

variable {config : Config} {program : Program} {machine : Machine} {operation : Operation}

theorem Operation.goesStraightOn_of_mnemonic (operation : Operation)
    (stays : operation.mnemonic ∉ transferNames) (awake : operation ≠ .sleep) :
    operation.goesStraightOn = true := by
  cases operation with
  | jump => exact absurd (by simp [mnemonic, transferNames]) stays
  | branch comparison =>
      cases comparison <;> simp [mnemonic, Comparison.suffix, transferNames] at stays
  | call => exact absurd (by simp [mnemonic, transferNames]) stays
  | giveBack guard => cases guard <;> simp [mnemonic, transferNames] at stays
  | sleep => exact absurd rfl awake
  | _ => rfl

theorem Machine.Updates.passes {outcome : Except Fault Unit × Machine}
    (updates : machine.Updates outcome) :
    Interpreter.isFatal outcome.1 = false ∧ outcome.2.flow = machine.flow := by
  cases updates with
  | wrote name value => exact ⟨rfl, rfl⟩
  | drove range bits => exact ⟨rfl, rfl⟩
  | undefined => exact ⟨rfl, rfl⟩

/-- The idle steps that a line asks for on a machine. -/
def Line.askedSteps (line : Line) (machine : Machine) : Nat :=
  if line.instructionName? = some "slp" then
    match line.arguments.head?.map fun operand => machine.wordOf operand.lexeme with
    | some (.ok value) => value.toNat
    | _ => 0
  else 0

theorem Line.askedSteps_le (line : Line) (machine : Machine) :
    line.askedSteps machine ≤ maxWord := by
  unfold askedSteps
  split
  · split
    · next value _found => exact Nat.le_of_lt_succ value.isLt
    · exact Nat.zero_le _
  · exact Nat.zero_le _

namespace Interpreter

variable {interpreter : Interpreter} {index : Nat} {line : Line}

theorem Executes.goesOn_straight
    (executes : interpreter.Executes config program index line operation)
    (executing : interpreter.phase = .executing) (indexed : Indexed program.lines)
    (straight : line.Straight) :
    GoesOn program index (line.askedSteps interpreter.machine) interpreter.step := by
  obtain ⟨stays, unlabelled⟩ := straight _ executes.instruction
  by_cases asks : operation = .sleep
  · subst asks
    obtain ⟨operand, value, single, word, goesOn⟩ := executes.goesOn_sleep executing indexed
    have named : line.instructionName? = some "slp" := executes.instruction
    have asked : line.askedSteps interpreter.machine = value.toNat := by
      unfold Line.askedSteps
      rw [if_pos named, single]
      simp only [List.head?_cons, Option.map_some, word]
    rw [asked]
    exact goesOn
  · have other : line.instructionName? ≠ some "slp" := by
      rw [executes.instruction]
      intro same
      exact asks (Operation.mnemonic_injective (Option.some.inj same))
    have asked : line.askedSteps interpreter.machine = 0 := if_neg other
    obtain ⟨mild, flow⟩ := (executes.applies.updates executes.shaped
      (operation.goesStraightOn_of_mnemonic stays asks)
      fun isMove => unlabelled (congrArg Operation.mnemonic isMove)).passes
    have awake := (interpreter.phase_eq_executing_iff.mp executing).2.2.1
    rw [asked]
    apply executes.goesOn executing indexed
    · rw [executes.performs]
      exact mild
    · rw [executes.performs]
      refine flow.trans ?_
      unfold Flow.setSleep
      rw [← awake]
      rfl

/-! ### Runs under a schedule -/

/-- The line that the next step executes, if it executes one. -/
def executedLine? (interpreter : Interpreter) : Option Nat :=
  if interpreter.phase = .executing then interpreter.machine.flow.next else none

/-- The idle steps that the next step adds to the run. What the last instruction line asks
for is not waited for. -/
def addedSteps (program : Program) (interpreter : Interpreter) : Nat :=
  match interpreter.executedLine? with
  | none => 0
  | some index =>
      if program.lastInstruction? = some index then 0
      else ((program.line? index).map fun line => line.askedSteps interpreter.machine).getD 0

/-- What is commanded before the step of a number: the steps before it, and before every
step the pin operations that a schedule has for it. -/
def commandsBefore (schedule : Nat → List Pins.Operation) : Nat → List Command
  | 0 => (schedule 0).map .pins
  | count + 1 =>
      commandsBefore schedule count ++ .step :: (schedule (count + 1)).map .pins

/-- The interpreter that the step of a number finds. -/
def scheduled (made : Interpreter) (schedule : Nat → List Pins.Operation) (count : Nat) :
    Interpreter :=
  made.after (commandsBefore schedule count)

/-- The lines that the first steps execute, in order. -/
def executedLines (made : Interpreter) (schedule : Nat → List Pins.Operation) (count : Nat) :
    List Nat :=
  (List.range count).filterMap fun earlier => (made.scheduled schedule earlier).executedLine?

/-- The idle steps that the first steps add to the run, taken together. -/
def idleSteps (program : Program) (made : Interpreter) (schedule : Nat → List Pins.Operation) :
    Nat → Nat
  | 0 => 0
  | count + 1 =>
      idleSteps program made schedule count +
        (made.scheduled schedule count).addedSteps program

theorem scheduled_succ (made : Interpreter) (schedule : Nat → List Pins.Operation)
    (count : Nat) :
    made.scheduled schedule (count + 1) =
      (made.scheduled schedule count).step.interpreter.after
        ((schedule (count + 1)).map .pins) :=
  List.foldl_append

theorem executedLines_succ (made : Interpreter) (schedule : Nat → List Pins.Operation)
    (count : Nat) :
    made.executedLines schedule (count + 1) =
      made.executedLines schedule count ++
        (made.scheduled schedule count).executedLine?.toList := by
  unfold executedLines
  rw [List.range_succ, List.filterMap_append]
  rfl

variable {count added : Nat} {executed left : List Nat}

/-- A run that has taken some steps and executed some instruction lines, with others left.
The idle steps that are still to come are already counted. -/
structure Underway (config : Config) (program : Program) (count : Nat)
    (executed left : List Nat) (added : Nat) (interpreter : Interpreter) : Prop where
  steady : interpreter.Steady config program .standard
  ok : interpreter.diagnostics.isOk = true
  order : program.instructionIndices = executed ++ left
  next : interpreter.machine.flow.next = left.head?
  few : added ≤ maxWord * executed.length
  spent : left ≠ [] → count + interpreter.machine.flow.sleep =
    config.steps * executed.length + interpreter.pendingSteps + added

theorem Underway.start (made : Interpreter) (indexed : Indexed program.lines)
    (some_line : 0 < program.lines.length)
    (accepted : create config program .standard = .ok made) :
    Underway config program 0 [] program.instructionIndices 0 made := by
  have steady := Steady.of_create made indexed some_line accepted
  obtain ⟨_valid, clean, rfl⟩ := create_eq_ok config program .standard made accepted
  exact
    { steady := steady
      ok := clean
      order := rfl
      next := program.nextInstruction?_eq_head? 0
      few := Nat.le_refl 0
      spent := fun _ => rfl }

theorem Underway.obey_pins
    (underway : Underway config program count executed left added interpreter)
    (operation : Pins.Operation) :
    Underway config program count executed left added
      (interpreter.obey (.pins operation)).interpreter :=
  { underway with steady := underway.steady.obey_pins operation }

theorem Underway.after_pins
    (underway : Underway config program count executed left added interpreter)
    (operations : List Pins.Operation) :
    Underway config program count executed left added
      (interpreter.after (operations.map .pins)) := by
  induction operations generalizing interpreter with
  | nil => exact underway
  | cons operation rest ih => exact ih (underway.obey_pins operation)

theorem Underway.isTerminated_iff
    (underway : Underway config program count executed left added interpreter) :
    interpreter.isTerminated = true ↔ left = [] := by
  unfold isTerminated Flow.isTerminated
  rw [underway.next, Option.isNone_iff_eq_none, List.head?_eq_none_iff]

/-- What a step adds to a run that is underway. -/
structure Advances (config : Config) (program : Program) (count : Nat)
    (executed left : List Nat) (added : Nat) (interpreter : Interpreter) : Prop where
  completes : interpreter.step.result = .ok ()
  later : ∃ later, left = interpreter.executedLine?.toList ++ later ∧
    Underway config program (count + 1) (executed ++ interpreter.executedLine?.toList) later
      (added + interpreter.addedSteps program) interpreter.step.interpreter
  /-- The step that executes the last line is the last step. -/
  last : left ≠ [] → interpreter.step.interpreter.isTerminated = true →
    count + 1 = config.steps * (executed ++ interpreter.executedLine?.toList).length +
      (added + interpreter.addedSteps program)

theorem Underway.idle
    (underway : Underway config program count executed left added interpreter)
    (indexed : Indexed program.lines) (resting : interpreter.phase ≠ .executing)
    (completes : interpreter.step.result = .ok ())
    (next : interpreter.step.interpreter.machine.flow.next = interpreter.machine.flow.next)
    (spent : left ≠ [] → count + 1 + interpreter.step.interpreter.machine.flow.sleep =
      config.steps * executed.length + interpreter.step.interpreter.pendingSteps + added) :
    Advances config program count executed left added interpreter := by
  have noLine : interpreter.executedLine? = none := if_neg resting
  have nothing : interpreter.addedSteps program = 0 := by
    unfold addedSteps
    rw [noLine]
  have following : Underway config program (count + 1) executed left added
      interpreter.step.interpreter :=
    { steady := underway.steady.step indexed
      ok := isOk_step underway.ok completes
      order := underway.order
      next := next.trans underway.next
      few := underway.few
      spent := spent }
  refine ⟨completes, ⟨left, ?_, ?_⟩, ?_⟩
  · rw [noLine]
    rfl
  · rw [noLine, nothing, Option.toList_none, List.append_nil, Nat.add_zero]
    exact following
  · intro lines ended
    exact absurd (following.isTerminated_iff.mp ended) lines

theorem Executes.addedSteps_eq
    (executes : interpreter.Executes config program index line operation)
    (executing : interpreter.phase = .executing) (indexed : Indexed program.lines)
    (later : List Nat) (order : program.instructionIndices = executed ++ index :: later) :
    interpreter.addedSteps program =
      if later = [] then 0 else line.askedSteps interpreter.machine := by
  have found : interpreter.executedLine? = some index := (if_pos executing).trans executes.next
  have place : program.line? index = some line := executes.place
  unfold addedSteps
  rw [found]
  simp only [place, Option.map_some, Option.getD_some]
  have isLast : program.lastInstruction? = some index ↔ later = [] := by
    unfold Program.lastInstruction?
    rw [order, List.getLast?_append_of_ne_nil _ (List.cons_ne_nil _ _)]
    constructor
    · intro same
      by_contra some_later
      rw [List.getLast?_cons_of_ne_nil some_later] at same
      have sorted := program.pairwise_instructionIndices indexed
      rw [order] at sorted
      have behind := (List.pairwise_cons.mp (List.pairwise_append.mp sorted).2.1).1 index
        (List.mem_of_getLast? same)
      exact Nat.lt_irrefl index behind
    · rintro rfl
      rfl
  simp only [isLast]

/-- A step that executes a line takes the first of the lines that are left. -/
theorem Underway.execute
    (underway : Underway config program count executed left added interpreter)
    (indexed : Indexed program.lines)
    (clean : (program.validate config .standard).isOk = true)
    (straight : program.StraightLine) (executing : interpreter.phase = .executing) :
    Advances config program count executed left added interpreter := by
  obtain ⟨index, line, operation, executes⟩ := underway.steady.exists_executes clean executing
  have goesOn := executes.goesOn_straight executing indexed
    (straight line (List.mem_of_getElem? executes.place))
  obtain ⟨later, rfl⟩ := List.head?_eq_some_iff.mp (underway.next.symm.trans executes.next)
  have found : interpreter.executedLine? = some index := (if_pos executing).trans executes.next
  have next := program.nextInstruction?_behind indexed executed later index underway.order
  have asked := executes.addedSteps_eq executing indexed later underway.order
  have atMost := line.askedSteps_le interpreter.machine
  have sleep : interpreter.step.interpreter.machine.flow.sleep =
      line.askedSteps interpreter.machine := congrArg Flow.sleep goesOn.flow
  -- The line is due, so all steps but this one have been spent on it.
  obtain ⟨_ok, _next, awake, due⟩ := interpreter.phase_eq_executing_iff.mp executing
  have early := underway.steady.pending
  rw [underway.steady.config_eq] at due
  have spent := underway.spent (List.cons_ne_nil _ _)
  have following : Underway config program (count + 1) (executed ++ [index]) later
      (added + interpreter.addedSteps program) interpreter.step.interpreter :=
    { steady := underway.steady.step indexed
      ok := goesOn.ok
      order := by
        rw [underway.order, List.append_assoc]
        rfl
      next := by
        rw [goesOn.flow]
        exact next
      few := by
        have few := underway.few
        rw [List.length_append, List.length_singleton, Nat.mul_add, asked]
        split <;> omega
      spent := by
        intro some_later
        rw [if_neg some_later] at asked
        rw [sleep, goesOn.rested, asked, List.length_append, List.length_singleton,
          Nat.mul_add]
        omega }
  refine ⟨goesOn.completes, ⟨later, ?_, ?_⟩, ?_⟩
  · rw [found]
    rfl
  · rw [found]
    exact following
  · intro _lines ended
    rw [if_pos (following.isTerminated_iff.mp ended)] at asked
    rw [found, asked, Option.toList_some, List.length_append, List.length_singleton, Nat.mul_add]
    omega

theorem Underway.step
    (underway : Underway config program count executed left added interpreter)
    (indexed : Indexed program.lines)
    (clean : (program.validate config .standard).isOk = true)
    (straight : program.StraightLine) :
    Advances config program count executed left added interpreter := by
  cases phase : interpreter.phase with
  | faulted =>
      have failed := interpreter.phase_eq_faulted_iff.mp phase
      rw [underway.ok] at failed
      cases failed
  | terminated =>
      obtain ⟨ok, ended⟩ := interpreter.phase_eq_terminated_iff.mp phase
      obtain ⟨completes, same⟩ := step_of_ended ok ended
      apply underway.idle indexed (by rw [phase]; decide) completes (by rw [same])
      intro lines
      rw [underway.next, List.head?_eq_none_iff] at ended
      exact absurd ended lines
  | sleeping =>
      obtain ⟨ok, next, asleep⟩ := interpreter.phase_eq_sleeping_iff.mp phase
      obtain ⟨rest, succ⟩ := Nat.exists_eq_succ_of_ne_zero (Nat.ne_of_gt asleep)
      obtain ⟨completes, counted⟩ := Asleep.step ⟨ok, next, succ⟩
      apply underway.idle indexed (by rw [phase]; decide) completes (by rw [counted]; rfl)
      intro lines
      have spent := underway.spent lines
      rw [counted]
      change count + 1 + rest =
        config.steps * executed.length + interpreter.pendingSteps + added
      rw [succ] at spent
      omega
  | waiting =>
      have awake := (interpreter.phase_eq_waiting_iff.mp phase).2.2.1
      have waits : interpreter.step =
          ⟨.ok (), { interpreter.focus with pendingSteps := interpreter.pendingSteps + 1 },
            .empty⟩ := by
        simp only [Interpreter.step, phase]
      apply underway.idle indexed (by rw [phase]; decide) (by rw [waits]) (by rw [waits]; rfl)
      intro lines
      have spent := underway.spent lines
      rw [waits]
      change count + 1 + interpreter.machine.flow.sleep =
        config.steps * executed.length + (interpreter.pendingSteps + 1) + added
      omega
  | executing => exact underway.execute indexed clean straight phase

/-! ### Whole runs -/

/-- A run executes each instruction line of a program once, in order, and ends after a
number of steps. -/
structure RunsThrough (config : Config) (program : Program) (made : Interpreter)
    (schedule : Nat → List Pins.Operation) (total : Nat) : Prop where
  completes : ∀ count, (made.scheduled schedule count).step.result = .ok ()
  ends : ∀ count, (made.scheduled schedule count).isTerminated = true ↔ total ≤ count
  lines : ∀ count, total ≤ count →
    made.executedLines schedule count = program.instructionIndices
  duration : total =
    config.steps * program.instructionCount + made.idleSteps program schedule total

theorem Underway.count_le
    (underway : Underway config program count executed left added interpreter)
    (some_left : left ≠ []) :
    count ≤ (config.steps + maxWord) * program.instructionCount + config.steps := by
  have spent := underway.spent some_left
  have few := underway.few
  have early := underway.steady.pending
  have length : executed.length ≤ program.instructionCount := by
    have whole := congrArg List.length underway.order
    rw [List.length_append, Program.instructionIndices, List.length_map] at whole
    unfold Program.instructionCount
    omega
  have bound : (config.steps + maxWord) * executed.length ≤
      (config.steps + maxWord) * program.instructionCount := Nat.mul_le_mul_left _ length
  rw [Nat.add_mul] at bound
  omega

section Schedules

variable {mode : CommentMode} {source : String} {made : Interpreter}
  (accepted : create config (.ofSource mode source) .standard = .ok made)
  (straight : (Program.ofSource mode source).StraightLine)
  (schedule : Nat → List Pins.Operation)

include accepted straight

theorem exists_underway (count : Nat) :
    ∃ left, Underway config (.ofSource mode source) count (made.executedLines schedule count)
      left (made.idleSteps (.ofSource mode source) schedule count)
      (made.scheduled schedule count) := by
  have indexed := Program.ofSource_indexed mode source
  have clean := (create_eq_ok config _ .standard made accepted).2.1
  induction count with
  | zero =>
      exact ⟨_, (Underway.start made indexed (Program.ofSource_lines_pos mode source)
        accepted).after_pins (schedule 0)⟩
  | succ count ih =>
      obtain ⟨left, underway⟩ := ih
      obtain ⟨later, _split, following⟩ := (underway.step indexed clean straight).later
      refine ⟨later, ?_⟩
      rw [executedLines_succ, idleSteps, scheduled_succ]
      exact following.after_pins (schedule (count + 1))

theorem exists_advances (count : Nat) :
    ∃ left, ((made.scheduled schedule count).isTerminated = true ↔ left = []) ∧
      Advances config (.ofSource mode source) count (made.executedLines schedule count)
        left (made.idleSteps (.ofSource mode source) schedule count)
        (made.scheduled schedule count) := by
  obtain ⟨left, underway⟩ := exists_underway accepted straight schedule count
  exact ⟨left, underway.isTerminated_iff,
    underway.step (Program.ofSource_indexed mode source)
      (create_eq_ok config _ .standard made accepted).2.1 straight⟩

theorem exists_isTerminated :
    ∃ count, (made.scheduled schedule count).isTerminated = true := by
  obtain ⟨left, underway⟩ := exists_underway accepted straight schedule
    ((config.steps + maxWord) * (Program.ofSource mode source).instructionCount +
      config.steps + 1)
  refine ⟨_, underway.isTerminated_iff.mpr ?_⟩
  by_contra some_left
  have bound := underway.count_le some_left
  omega

theorem isTerminated_scheduled_succ (count : Nat)
    (ended : (made.scheduled schedule count).isTerminated = true) :
    (made.scheduled schedule (count + 1)).isTerminated = true := by
  obtain ⟨left, isTerminated_iff, advances⟩ := exists_advances accepted straight schedule count
  obtain ⟨later, split, following⟩ := advances.later
  rw [isTerminated_iff.mp ended, eq_comm, List.append_eq_nil_iff] at split
  rw [scheduled_succ]
  exact (following.after_pins _).isTerminated_iff.mpr split.2

theorem executedLines_of_isTerminated (count : Nat)
    (ended : (made.scheduled schedule count).isTerminated = true) :
    made.executedLines schedule count = (Program.ofSource mode source).instructionIndices := by
  obtain ⟨left, underway⟩ := exists_underway accepted straight schedule count
  rw [underway.order, underway.isTerminated_iff.mp ended, List.append_nil]

theorem exists_runsThrough :
    ∃ total, RunsThrough config (.ofSource mode source) made schedule total := by
  have terminates := exists_isTerminated accepted straight schedule
  -- The run takes the steps up to the first interpreter for which no line is left.
  obtain ⟨total, ended, first⟩ : ∃ total, (made.scheduled schedule total).isTerminated = true ∧
      ∀ earlier < total, ¬ (made.scheduled schedule earlier).isTerminated = true :=
    ⟨Nat.find terminates, Nat.find_spec terminates, fun _ => Nat.find_min terminates⟩
  have stays : ∀ count, total ≤ count →
      (made.scheduled schedule count).isTerminated = true := by
    intro count notBefore
    induction count, notBefore using Nat.le_induction with
    | base => exact ended
    | succ count _notBefore ih =>
        exact isTerminated_scheduled_succ accepted straight schedule count ih
  have lines : ∀ count, total ≤ count → made.executedLines schedule count =
      (Program.ofSource mode source).instructionIndices := fun count notBefore =>
    executedLines_of_isTerminated accepted straight schedule count (stays count notBefore)
  refine ⟨total, ?_, ?_, lines, ?_⟩
  · intro count
    obtain ⟨left, _isTerminated_iff, advances⟩ :=
      exists_advances accepted straight schedule count
    exact advances.completes
  · intro count
    refine ⟨fun finished => ?_, stays count⟩
    by_contra before
    exact first count (by omega) finished
  · have counted : (made.executedLines schedule total).length =
        (Program.ofSource mode source).instructionCount := by
      rw [lines total (Nat.le_refl _), Program.instructionIndices, List.length_map]
      rfl
    rw [← counted]
    cases total with
    | zero => rfl
    | succ last =>
        -- The step before the end executed the last line, with all lines before it counted.
        obtain ⟨left, isTerminated_iff, advances⟩ :=
          exists_advances accepted straight schedule last
        obtain ⟨later, _split, following⟩ := advances.later
        rw [executedLines_succ, idleSteps]
        apply advances.last
        · intro nothing
          exact first last (Nat.lt_succ_self last) (isTerminated_iff.mpr nothing)
        · rw [scheduled_succ] at ended
          exact following.isTerminated_iff.mpr
            ((following.after_pins _).isTerminated_iff.mp ended)

end Schedules

/-- Runs take as many steps as it takes to end, but no more than they are given. -/
theorem runFrom_result (taken : Nat) (traces : List Trace) (limit total : Nat)
    (start : Interpreter)
    (completes : ∀ count, (start.stepped count).step.result = .ok ())
    (ends : ∀ count, (start.stepped count).isTerminated = true ↔ total ≤ count) :
    (runFrom taken traces limit start).result = .ok (taken + min limit total) := by
  induction limit generalizing taken traces start total with
  | zero =>
      rw [Nat.zero_min]
      rfl
  | succ limit ih =>
      unfold runFrom
      cases total with
      | zero =>
          have ended : start.isTerminated = true := (ends 0).mpr (Nat.le_refl 0)
          rw [if_pos ended]
          rfl
      | succ total =>
          have goesOn : ¬ start.isTerminated = true := by
            intro ended
            exact Nat.not_succ_le_zero total ((ends 0).mp ended)
          have completed : start.step.result = .ok () := completes 0
          rw [if_neg goesOn]
          simp only [completed]
          rw [ih (taken + 1) _ total start.step.interpreter, Nat.succ_min_succ]
          · congr 1
            omega
          · intro count
            exact completes (count + 1)
          · intro count
            exact (ends (count + 1)).trans Nat.succ_le_succ_iff

theorem scheduled_nothing (made : Interpreter) (count : Nat) :
    made.scheduled (fun _ => []) count = made.stepped count := by
  induction count with
  | zero => rfl
  | succ count ih =>
      rw [scheduled_succ, stepped_succ, ih]
      rfl

/-- A program without jumps executes each of its instruction lines once, in order, whatever
a host does with the pins; no step fails, and the run ends after the steps that its lines
take and those that they ask for. A run without a host that is long enough counts them. -/
theorem straight_line_runs_through (config : Config) (mode : CommentMode) (source : String)
    (made : Interpreter)
    (accepted : create config (.ofSource mode source) .standard = .ok made)
    (straight : (Program.ofSource mode source).StraightLine) :
    (Program.ofSource mode source).instructionIndices.Pairwise (· < ·) ∧
      (∀ schedule, ∃ total,
        RunsThrough config (.ofSource mode source) made schedule total) ∧
      ∃ total, RunsThrough config (.ofSource mode source) made (fun _ => []) total ∧
        ∀ limit, (made.run limit).result = .ok (min limit total) := by
  have runs := exists_runsThrough accepted straight
  obtain ⟨total, through⟩ := runs fun _ => []
  refine ⟨Program.pairwise_instructionIndices _ (Program.ofSource_indexed mode source), runs,
    total, through, ?_⟩
  intro limit
  have counted := runFrom_result 0 [] limit total made
    (fun count => by rw [← scheduled_nothing]; exact through.completes count)
    (fun count => by rw [← scheduled_nothing]; exact through.ends count)
  rw [Nat.zero_add] at counted
  exact counted

/-- Five lines of two steps between labels and blank lines, one of them a division by zero.
An idle step is added if the host turns the pin on in time; those of the last line are not. -/
theorem straight_line_runs_through_idle :
    ∃ made : Interpreter,
      create { stepsPerInstruction := 2, pinCount := 1 }
        (.ofSource .skip ":top\nldp $acc .p0\n\ndiv 0 ; fails\nslp $acc\n:end\nadd 1\nslp 9")
        .standard = .ok made ∧
      RunsThrough { stepsPerInstruction := 2, pinCount := 1 }
        (.ofSource .skip ":top\nldp $acc .p0\n\ndiv 0 ; fails\nslp $acc\n:end\nadd 1\nslp 9")
        made (fun count => if count = 1 then [.setInput 0 true] else []) 11 ∧
      (made.run 100).result = .ok 10 := by
  obtain ⟨made, accepted, tested⟩ := exists_create_of_any
    { stepsPerInstruction := 2, pinCount := 1 }
    (.ofSource .skip ":top\nldp $acc .p0\n\ndiv 0 ; fails\nslp $acc\n:end\nadd 1\nslp 9")
    .standard
    (fun made =>
      let driven := made.scheduled fun count => if count = 1 then [.setInput 0 true] else []
      let alone := made.scheduled fun _ => []
      [driven 10, driven 11, alone 9, alone 10].map isTerminated == [false, true, false, true])
    (by decide +kernel)
  simp only [List.map_cons, List.map_nil, beq_iff_eq, List.cons.injEq, and_true] at tested
  obtain ⟨drivenBefore, drivenAfter, aloneBefore, aloneAfter⟩ := tested
  obtain ⟨_ordered, through, total, alone, counts⟩ :=
    straight_line_runs_through _ _ _ made accepted (by decide +kernel)
  refine ⟨made, accepted, ?_, ?_⟩
  · obtain ⟨other, driven⟩ := through fun count => if count = 1 then [.setInput 0 true] else []
    have after := (driven.ends 11).mp drivenAfter
    have before := mt (driven.ends 10).mpr (Bool.eq_false_iff.mp drivenBefore)
    obtain rfl : other = 11 := by omega
    exact driven
  · have after := (alone.ends 10).mp aloneAfter
    have before := mt (alone.ends 9).mpr (Bool.eq_false_iff.mp aloneBefore)
    obtain rfl : total = 10 := by omega
    exact counts 100

end Interpreter

end PinMachine
