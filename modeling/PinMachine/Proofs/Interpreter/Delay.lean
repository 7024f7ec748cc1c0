import Mathlib.Data.Nat.Count
import PinMachine.Catalog.Standard
import PinMachine.Proofs.Interpreter.Event
import PinMachine.Proofs.Interpreter.Phase
import PinMachine.Proofs.Validation.Accepted

/-!
The delay of instructions. A configuration says how many steps every line takes,
and nothing else of a run depends on it: an interpreter whose lines take several
steps goes through the same states as one whose lines take a single step, and
waits in between. Waiting moves to the line and counts, and changes nothing else.
-/

namespace PinMachine

namespace Interpreter

variable {interpreter : Interpreter} {delay : Int32}

def stepped (interpreter : Interpreter) (count : Nat) : Interpreter :=
  interpreter.after (List.replicate count .step)

@[simp]
theorem stepped_zero (interpreter : Interpreter) : interpreter.stepped 0 = interpreter := rfl

theorem stepped_add (interpreter : Interpreter) (earlier later : Nat) :
    interpreter.stepped (earlier + later) = (interpreter.stepped earlier).stepped later := by
  unfold stepped after
  rw [List.replicate_add, List.foldl_append]

theorem stepped_succ (interpreter : Interpreter) (count : Nat) :
    interpreter.stepped (count + 1) = (interpreter.stepped count).step.interpreter :=
  interpreter.stepped_add count 1

/-- How many of the first steps find the interpreter in a phase. -/
def spent (interpreter : Interpreter) (phase : Phase) (count : Nat) : Nat :=
  Nat.count (fun earlier => (interpreter.stepped earlier).phase = phase) count

theorem spent_succ (interpreter : Interpreter) (phase : Phase) (count : Nat) :
    interpreter.spent phase (count + 1) =
      interpreter.spent phase count +
        if (interpreter.stepped count).phase = phase then 1 else 0 :=
  Nat.count_succ _ _

theorem isOk_step (ok : interpreter.diagnostics.isOk = true)
    (completes : interpreter.step.result = .ok ()) :
    interpreter.step.interpreter.diagnostics.isOk = true := by
  unfold step at completes ⊢
  cases phase : interpreter.phase with
  | faulted => exact ok
  | terminated => exact ok
  | sleeping => exact ok
  | waiting => exact ok
  | executing =>
      rw [phase] at completes
      change interpreter.focus.executeLine.interpreter.diagnostics.isOk = true
      change interpreter.focus.executeLine.result = .ok () at completes
      cases result : interpreter.focus.performLine.result with
      | ok value =>
          simp only [executeLine, result]
          exact ok
      | error fault =>
          simp only [executeLine, result] at completes ⊢
          rw [Diagnostics.isOk_push_iff]
          refine ⟨ok, ?_⟩
          cases fatal : fault.isFatal with
          | true =>
              rw [fatal] at completes
              cases completes
          | false => simp [faultDiagnostic, fatal]

/-- An interpreter whose lines take one step, between two lines and without an
error. -/
structure Prompt (interpreter : Interpreter) : Prop where
  steps : interpreter.config.steps = 1
  rested : interpreter.pendingSteps = 0
  ok : interpreter.diagnostics.isOk = true

theorem Prompt.phase (prompt : interpreter.Prompt) :
    interpreter.phase = .terminated ∨ interpreter.phase = .sleeping ∨
      interpreter.phase = .executing := by
  cases phase : interpreter.phase with
  | faulted =>
      have failed := interpreter.phase_eq_faulted_iff.mp phase
      rw [prompt.ok] at failed
      cases failed
  | terminated => exact Or.inl rfl
  | sleeping => exact Or.inr (Or.inl rfl)
  | waiting =>
      have early := (interpreter.phase_eq_waiting_iff.mp phase).2.2.2
      rw [prompt.steps] at early
      omega
  | executing => exact Or.inr (Or.inr rfl)

theorem Prompt.step (prompt : interpreter.Prompt)
    (completes : interpreter.step.result = .ok ()) : interpreter.step.interpreter.Prompt where
  steps := by
    rw [step_config]
    exact prompt.steps
  rested := by
    rcases prompt.phase with phase | phase | phase
    · simp only [Interpreter.step, phase]
      exact prompt.rested
    · simp only [Interpreter.step, phase]
      exact prompt.rested
    · rw [step_of_executing phase]
      exact executeLine_pendingSteps _
  ok := isOk_step prompt.ok completes

theorem Prompt.stepped (prompt : interpreter.Prompt) (count : Nat)
    (complete : ∀ earlier < count, (interpreter.stepped earlier).step.result = .ok ()) :
    (interpreter.stepped count).Prompt := by
  induction count with
  | zero => exact prompt
  | succ count ih =>
      rw [stepped_succ]
      apply (ih fun earlier before => complete earlier (by omega)).step
      exact complete count (by omega)

/-- An interpreter that has spent steps on waiting for a line. -/
def waitingOn (interpreter : Interpreter) (line spent : Nat) : Interpreter :=
  { interpreter with
    machine :=
      { interpreter.machine with
        flow := { interpreter.machine.flow with current := line } }
    pendingSteps := spent }

theorem step_of_waiting (interpreter : Interpreter) (index : Nat)
    (next : interpreter.machine.flow.next = some index)
    (waiting : interpreter.phase = .waiting) :
    interpreter.step =
      ⟨.ok (), interpreter.waitingOn index (interpreter.pendingSteps + 1), .empty⟩ := by
  simp only [step, waiting, focus, Flow.focus, next, Option.getD_some, waitingOn]

theorem stepped_waiting (interpreter : Interpreter)
    (ok : interpreter.diagnostics.isOk = true) (index : Nat)
    (next : interpreter.machine.flow.next = some index)
    (awake : interpreter.machine.flow.sleep = 0) (rested : interpreter.pendingSteps = 0)
    (count : Nat) (early : count + 1 < interpreter.config.steps) :
    (interpreter.stepped count).step =
      ⟨.ok (), interpreter.waitingOn index (count + 1), .empty⟩ := by
  induction count with
  | zero =>
      have waiting : interpreter.phase = .waiting := by
        rw [phase_eq_waiting_iff]
        exact ⟨ok, ⟨index, next⟩, awake, by omega⟩
      have step := interpreter.step_of_waiting index next waiting
      rw [rested] at step
      exact step
  | succ count ih =>
      have reached : interpreter.stepped (count + 1) =
          interpreter.waitingOn index (count + 1) := by
        rw [stepped_succ, ih (by omega)]
      have waiting : (interpreter.waitingOn index (count + 1)).phase = .waiting := by
        rw [phase_eq_waiting_iff]
        exact ⟨ok, ⟨index, next⟩, awake, early⟩
      rw [reached]
      exact step_of_waiting (interpreter.waitingOn index (count + 1)) index next waiting

/-! ### Two delays -/

def delayed (interpreter : Interpreter) (delay : Int32) : Interpreter :=
  { interpreter with
    config := { interpreter.config with stepsPerInstruction := delay } }

theorem steps_delayed (interpreter : Interpreter) (delay : Int32)
    (positive : 0 < delay.toNatClampNeg) :
    (interpreter.delayed delay).config.steps = delay.toNatClampNeg := by
  change max delay.toNatClampNeg 1 = delay.toNatClampNeg
  omega

theorem step_delayed_of_idle (delay : Int32)
    (idle : interpreter.phase = .terminated ∨ interpreter.phase = .sleeping) :
    (interpreter.delayed delay).step =
      ⟨.ok (), interpreter.step.interpreter.delayed delay, interpreter.step.trace⟩ := by
  rcases idle with terminated | sleeping
  · have same : (interpreter.delayed delay).phase = .terminated := by
      rw [phase_eq_terminated_iff] at terminated ⊢
      exact terminated
    simp only [step, terminated, same]
  · have same : (interpreter.delayed delay).phase = .sleeping := by
      rw [phase_eq_sleeping_iff] at sleeping ⊢
      exact sleeping
    simp only [step, sleeping, same]
    rfl

theorem executeLine_delayed (interpreter : Interpreter) (delay : Int32) (line waited : Nat)
    (same : interpreter.machine.flow.current = line) :
    ((interpreter.delayed delay).waitingOn line waited).executeLine =
      ⟨interpreter.executeLine.result, interpreter.executeLine.interpreter.delayed delay,
        interpreter.executeLine.trace⟩ := by
  subst same
  have performed : ((interpreter.delayed delay).waitingOn interpreter.machine.flow.current
      waited).performLine = interpreter.performLine := rfl
  cases result : interpreter.performLine.result with
  | ok value =>
      simp only [executeLine, performed, result]
      rfl
  | error fault =>
      simp only [executeLine, performed, result]
      rfl

theorem step_delayed_of_executing (delay : Int32) (rested : interpreter.pendingSteps = 0)
    (executing : interpreter.phase = .executing) :
    ((interpreter.delayed delay).stepped ((interpreter.delayed delay).config.steps - 1)).step =
      ⟨interpreter.step.result, interpreter.step.interpreter.delayed delay,
        interpreter.step.trace⟩ := by
  obtain ⟨ok, ⟨index, next⟩, awake, _due⟩ := interpreter.phase_eq_executing_iff.mp executing
  have current := focus_current index next
  -- The line has waited for all steps but one, or its delay has no other step.
  cases waits : (interpreter.delayed delay).config.steps - 1 with
  | zero =>
      have due : (interpreter.delayed delay).phase = .executing := by
        rw [phase_eq_executing_iff]
        exact ⟨ok, ⟨index, next⟩, awake, by omega⟩
      have focused : (interpreter.delayed delay).focus =
          (interpreter.focus.delayed delay).waitingOn index 0 := by
        rw [← current, ← rested]
        rfl
      rw [stepped_zero, step_of_executing due, step_of_executing executing, focused]
      exact executeLine_delayed interpreter.focus delay index 0 current
  | succ count =>
      have reached : (interpreter.delayed delay).stepped (count + 1) =
          (interpreter.delayed delay).waitingOn index (count + 1) := by
        have early : count + 1 < (interpreter.delayed delay).config.steps := by omega
        rw [stepped_succ, stepped_waiting (interpreter.delayed delay) ok index next awake rested
          count early]
      have due : ((interpreter.delayed delay).waitingOn index (count + 1)).phase =
          .executing := by
        rw [phase_eq_executing_iff]
        refine ⟨ok, ⟨index, next⟩, awake, ?_⟩
        change (interpreter.delayed delay).config.steps ≤ count + 1 + 1
        omega
      have focused : ((interpreter.delayed delay).waitingOn index (count + 1)).focus =
          (interpreter.focus.delayed delay).waitingOn index (count + 1) := by
        simp only [focus, Flow.focus, waitingOn, delayed, next, Option.getD_some]
      rw [reached, step_of_executing due, step_of_executing executing, focused]
      exact executeLine_delayed interpreter.focus delay index (count + 1) current

/-- How many steps a step in a phase corresponds to, if a line takes so many steps. -/
def stretch (steps : Nat) : Phase → Nat
  | .executing => steps
  | _ => 1

/-- The steps that correspond to a step do what it does, and only the last of them
can fail. -/
theorem Prompt.stepped_stretch (prompt : interpreter.Prompt) (delay : Int32)
    (positive : 0 < delay.toNatClampNeg) :
    (interpreter.delayed delay).stepped (stretch delay.toNatClampNeg interpreter.phase) =
        interpreter.step.interpreter.delayed delay ∧
      (∀ earlier, earlier + 1 < stretch delay.toNatClampNeg interpreter.phase →
        ((interpreter.delayed delay).stepped earlier).step.result = .ok ()) ∧
      ((interpreter.delayed delay).stepped
          (stretch delay.toNatClampNeg interpreter.phase - 1)).step.result =
        interpreter.step.result := by
  have steps := interpreter.steps_delayed delay positive
  rcases or_assoc.mpr prompt.phase with idle | executing
  · have step := interpreter.step_delayed_of_idle delay idle
    have single : stretch delay.toNatClampNeg interpreter.phase = 1 := by
      rcases idle with terminated | sleeping
      · rw [terminated]
        rfl
      · rw [sleeping]
        rfl
    have completes : interpreter.step.result = .ok () := by
      rcases idle with terminated | sleeping
      · simp only [Interpreter.step, terminated]
      · simp only [Interpreter.step, sleeping]
    rw [single]
    refine ⟨congrArg StepReport.interpreter step, fun earlier before => ?_, ?_⟩
    · omega
    · rw [Nat.sub_self, stepped_zero, step, completes]
  · have last := interpreter.step_delayed_of_executing delay prompt.rested executing
    obtain ⟨ok, ⟨index, next⟩, awake, _due⟩ :=
      interpreter.phase_eq_executing_iff.mp executing
    rw [steps] at last
    rw [executing, stretch]
    refine ⟨?_, fun earlier before => ?_, ?_⟩
    · rw [← Nat.succ_pred_eq_of_pos positive, stepped_succ]
      exact congrArg StepReport.interpreter last
    · rw [stepped_waiting (interpreter.delayed delay) ok index next awake prompt.rested
        earlier (by omega)]
    · rw [last]

/-- How many steps get as far as a number of steps of an interpreter, if a line takes
so many steps: the idle steps and those after the end of the program count as one. -/
def pace (interpreter : Interpreter) (steps count : Nat) : Nat :=
  steps * interpreter.spent .executing count + interpreter.spent .sleeping count +
    interpreter.spent .terminated count

theorem Prompt.pace_succ (steps count : Nat) (prompt : (interpreter.stepped count).Prompt) :
    interpreter.pace steps (count + 1) =
      interpreter.pace steps count + stretch steps (interpreter.stepped count).phase := by
  unfold pace
  simp only [spent_succ]
  rcases prompt.phase with phase | phase | phase
  · simp [phase, stretch]
    omega
  · simp [phase, stretch]
    omega
  · simp [phase, stretch, Nat.mul_add]
    omega

theorem Prompt.spent_eq (prompt : interpreter.Prompt) (count : Nat)
    (complete : ∀ earlier < count, (interpreter.stepped earlier).step.result = .ok ()) :
    interpreter.spent .executing count + interpreter.spent .sleeping count +
      interpreter.spent .terminated count = count := by
  induction count with
  | zero => rfl
  | succ count ih =>
      have before := ih fun earlier before => complete earlier (by omega)
      have reached := prompt.stepped count fun earlier before => complete earlier (by omega)
      -- The phases are counted with the pace of an interpreter without delay.
      have counted := reached.pace_succ 1 count
      have single : stretch 1 (interpreter.stepped count).phase = 1 := by
        cases (interpreter.stepped count).phase <;> rfl
      unfold pace at counted
      omega

theorem Prompt.stepped_pace (prompt : interpreter.Prompt) (delay : Int32)
    (positive : 0 < delay.toNatClampNeg) (count : Nat)
    (complete : ∀ earlier < count, (interpreter.stepped earlier).step.result = .ok ()) :
    (interpreter.delayed delay).stepped (interpreter.pace delay.toNatClampNeg count) =
        (interpreter.stepped count).delayed delay ∧
      ∀ earlier < interpreter.pace delay.toNatClampNeg count,
        ((interpreter.delayed delay).stepped earlier).step.result = .ok () := by
  induction count with
  | zero =>
      refine ⟨rfl, fun earlier before => ?_⟩
      simp [pace, spent] at before
  | succ count ih =>
      obtain ⟨reached, completed⟩ := ih fun earlier before => complete earlier (by omega)
      have ready := prompt.stepped count fun earlier before => complete earlier (by omega)
      obtain ⟨arrives, waits, ends⟩ := ready.stepped_stretch delay positive
      rw [ready.pace_succ delay.toNatClampNeg count]
      constructor
      · rw [stepped_add, reached, arrives, stepped_succ]
      · intro earlier before
        by_cases old : earlier < interpreter.pace delay.toNatClampNeg count
        · exact completed earlier old
        · -- A step of the group that the last step corresponds to.
          obtain ⟨offset, rfl⟩ := Nat.exists_eq_add_of_le (Nat.le_of_not_lt old)
          rw [stepped_add, reached]
          by_cases early : offset + 1 < stretch delay.toNatClampNeg
              (interpreter.stepped count).phase
          · exact waits offset early
          · have final : offset =
                stretch delay.toNatClampNeg (interpreter.stepped count).phase - 1 := by
              omega
            rw [final, ends]
            exact complete count (by omega)

theorem create_delayed (config : Config) (program : Program) (catalog : Catalog)
    (made : Interpreter) (accepted : create config program catalog = .ok made)
    (delay : Int32) (positive : 1 ≤ delay) :
    create { config with stepsPerInstruction := delay } program catalog =
      .ok (made.delayed delay) := by
  obtain ⟨valid, clean, rfl⟩ := create_eq_ok config program catalog made accepted
  have delayedValid : ({ config with stepsPerInstruction := delay } : Config).Valid := by
    unfold Config.Valid Config.problems at valid ⊢
    rw [List.append_eq_nil_iff] at valid ⊢
    refine ⟨valid.1, if_neg ?_⟩
    exact Int32.not_lt.mpr positive
  unfold create
  rw [if_pos delayedValid]
  have same : program.validate { config with stepsPerInstruction := delay } catalog =
      program.validate config catalog := rfl
  simp only [same, clean, if_true]
  rfl

/-! ### Stuttering -/

/-- The interpreters stand between two lines in the same state. -/
structure Meets (delayed prompt : Interpreter) : Prop where
  machine : delayed.machine = prompt.machine
  diagnostics : delayed.diagnostics = prompt.diagnostics
  rested : delayed.pendingSteps = 0

theorem meets_delayed (interpreter : Interpreter) (delay : Int32)
    (rested : interpreter.pendingSteps = 0) :
    (interpreter.delayed delay).Meets interpreter where
  machine := rfl
  diagnostics := rfl
  rested := rested

/-- What a delay makes of a number of steps without delay and of the step after them. -/
structure Stutters (delayed prompt : Interpreter) (steps count : Nat) : Prop where
  /-- Each step executes a line, is idle, or comes after the end of the program. -/
  counted : prompt.spent .executing count + prompt.spent .sleeping count +
    prompt.spent .terminated count = count
  completes : ∀ earlier < prompt.pace steps count,
    (delayed.stepped earlier).step.result = .ok ()
  meets : (delayed.stepped (prompt.pace steps count)).Meets (prompt.stepped count)
  /-- A line that is due waits for all steps of its delay but the last. -/
  waits : ∀ index, (prompt.stepped count).phase = .executing →
    (prompt.stepped count).machine.flow.next = some index →
    ∀ waited, waited + 1 < steps →
      (delayed.stepped (prompt.pace steps count + waited)).step.result = .ok () ∧
      delayed.stepped (prompt.pace steps count + waited + 1) =
        (delayed.stepped (prompt.pace steps count)).waitingOn index (waited + 1)
  /-- A step that fails is the last step of its delay. -/
  fails : ∀ fault, (prompt.stepped count).step.result = .error fault →
    (∀ waited, waited + 1 < steps →
      (delayed.stepped (prompt.pace steps count + waited)).step.result = .ok ()) ∧
    (delayed.stepped (prompt.pace steps count + (steps - 1))).step.result =
      .error fault ∧
    (delayed.stepped (prompt.pace steps count + steps)).Meets (prompt.stepped (count + 1))

theorem Prompt.stutters (prompt : interpreter.Prompt) (delay : Int32)
    (positive : 0 < delay.toNatClampNeg) (count : Nat)
    (complete : ∀ earlier < count, (interpreter.stepped earlier).step.result = .ok ()) :
    (interpreter.delayed delay).Stutters interpreter delay.toNatClampNeg count := by
  obtain ⟨arrived, completed⟩ := prompt.stepped_pace delay positive count complete
  have ready := prompt.stepped count complete
  constructor
  · exact prompt.spent_eq count complete
  · exact completed
  · rw [arrived]
    exact meets_delayed _ delay ready.rested
  · intro index executing next waited early
    obtain ⟨ok, _next, awake, _due⟩ := (phase_eq_executing_iff _).mp executing
    rw [← steps_delayed (interpreter.stepped count) delay positive] at early
    have step := stepped_waiting ((interpreter.stepped count).delayed delay) ok index next
      awake ready.rested waited early
    rw [stepped_succ, stepped_add, arrived, step]
    exact ⟨rfl, rfl⟩
  · intro fault raised
    have executing : (interpreter.stepped count).phase = .executing := by
      rcases ready.phase with phase | phase | phase
      · simp only [Interpreter.step, phase] at raised
        cases raised
      · simp only [Interpreter.step, phase] at raised
        cases raised
      · exact phase
    obtain ⟨arrives, waits, ends⟩ := ready.stepped_stretch delay positive
    rw [executing, stretch] at arrives waits ends
    refine ⟨fun waited early => ?_, ?_, ?_⟩
    · rw [stepped_add, arrived]
      exact waits waited early
    · rw [stepped_add, arrived, ends, raised]
    · rw [stepped_add, arrived, arrives, stepped_succ]
      apply meets_delayed
      rw [step_of_executing executing]
      exact executeLine_pendingSteps _

/-- The delay is a pure stuttering. As long as the steps of the interpreter without
delay succeed, the one with delay goes through the same states at its own pace, waits in
between for the lines that are due, and fails where the other one fails. -/
theorem delay_stutters (config : Config) (program : Program) (catalog : Catalog)
    (made : Interpreter) (accepted : create config program catalog = .ok made)
    (delay : Int32) (positive : 1 ≤ delay) :
    ∃ prompt delayed,
      create { config with stepsPerInstruction := 1 } program catalog = .ok prompt ∧
      create { config with stepsPerInstruction := delay } program catalog = .ok delayed ∧
      ∀ count, (∀ earlier < count, (prompt.stepped earlier).step.result = .ok ()) →
        delayed.Stutters prompt delay.toNatClampNeg count := by
  have steps : 0 < delay.toNatClampNeg := by
    have bound := Int32.le_iff_toInt_le.mp positive
    change 1 ≤ delay.toInt at bound
    change 0 < delay.toInt.toNat
    omega
  have prompt : (made.delayed 1).Prompt := by
    obtain ⟨_valid, clean, rfl⟩ := create_eq_ok config program catalog made accepted
    exact { steps := steps_delayed _ 1 (by decide), rested := rfl, ok := clean }
  refine ⟨made.delayed 1, made.delayed delay,
    create_delayed config program catalog made accepted 1 (by decide),
    create_delayed config program catalog made accepted delay positive, ?_⟩
  intro count complete
  exact prompt.stutters delay steps count complete

/-- With a delay of three, two lines and two idle steps take eight steps; the line after
them waits for two steps and fails on the third. -/
theorem delay_stutters_until_fault :
    ∃ prompt delayed : Interpreter,
      create { stepsPerInstruction := 1 } (.ofSource .skip "add 7\nslp 2\nret") .standard =
        .ok prompt ∧
      create { stepsPerInstruction := 3 } (.ofSource .skip "add 7\nslp 2\nret") .standard =
        .ok delayed ∧
      (delayed.stepped 8).Meets (prompt.stepped 4) ∧
      (prompt.stepped 4).step.result = .error .stackUnderflow ∧
      (delayed.stepped 9).step.result = .ok () ∧
      (delayed.stepped 10).step.result = .error .stackUnderflow ∧
      (delayed.stepped 11).Meets (prompt.stepped 5) := by
  obtain ⟨tried, accepted, tested⟩ := exists_create_of_any { stepsPerInstruction := 1 }
    (.ofSource .skip "add 7\nslp 2\nret") .standard
    (fun made =>
      (List.range 4).all (fun earlier => (made.stepped earlier).step.result == .ok ()) &&
        made.pace 3 4 == 8 && (made.stepped 4).step.result == .error .stackUnderflow)
    (by decide +kernel)
  obtain ⟨prompt, delayed, first, second, stutters⟩ :=
    delay_stutters _ _ _ tried accepted 3 (by decide)
  obtain rfl : tried = prompt := Except.ok.inj (accepted.symm.trans first)
  simp only [Bool.and_eq_true, beq_iff_eq, List.all_eq_true, List.mem_range] at tested
  obtain ⟨⟨complete, pace⟩, raised⟩ := tested
  have stutter := stutters 4 complete
  rw [show (3 : Int32).toNatClampNeg = 3 by decide] at stutter
  have meets := stutter.meets
  obtain ⟨waits, fails, after⟩ := stutter.fails _ raised
  rw [pace] at meets waits fails after
  exact ⟨tried, delayed, first, second, meets, raised, waits 1 (by decide), fails, after⟩

end Interpreter

end PinMachine
