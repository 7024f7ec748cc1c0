import PinMachine.Host.Script
import PinMachine.Proofs.Catalog.Failure
import PinMachine.Proofs.Interpreter.Lifecycle

/-!
Sessions that have failed. From the first step that fails on, steps are refused and change
nothing. Runs are refused as well as long as there is a next line, and that is the line
that failed, unless its behavior went elsewhere before it failed: a fatal fault does not
take a jump back. A behavior that leaves the program and then fails has ended the run, so
that further runs take no step and succeed.
-/

namespace PinMachine

/-- The line that a request makes the next one; nothing for requests that choose none. -/
def Request.destination? (program : Program) : Request → Option (Option Nat)
  | .jump address => some (program.nextInstruction? address)
  | .jumpToLabel label =>
      some ((program.labelLine? label).bind fun line => program.nextInstruction? (line + 1))
  | _ => none

/-- The next line after some requests: the choice of the last one that made any. -/
def Program.destination (program : Program) (next : Option Nat) (requests : List Request) :
    Option Nat :=
  requests.foldl (fun chosen request => (request.destination? program).getD chosen) next

theorem Program.destination_of_none (program : Program) (next : Option Nat)
    (requests : List Request)
    (stays : ∀ request ∈ requests, request.destination? program = none) :
    program.destination next requests = next := by
  induction requests with
  | nil => rfl
  | cons request rest ih =>
      unfold Program.destination
      rw [List.foldl_cons, stays request List.mem_cons_self]
      exact ih fun later member => stays later (List.mem_cons_of_mem _ member)

namespace Machine

variable {config : Config} {machine : Machine}

theorem Shaped.serve_current (shaped : machine.Shaped config) (request : Request) :
    (machine.serve request).2.flow.current = machine.flow.current := by
  have served := shaped.served request
  generalize (machine.serve request).2 = after at served
  cases served <;> rfl

theorem Shaped.serve_next (shaped : machine.Shaped config) (request : Request) :
    (machine.serve request).2.flow.next =
      (request.destination? machine.program).getD machine.flow.next := by
  cases request with
  | pushFrame =>
      change machine.pushFrame.2.flow.next = machine.flow.next
      have opening := shaped.opening
      generalize machine.pushFrame = result at opening
      cases opening <;> rfl
  | popFrame =>
      change machine.popFrame.2.flow.next = machine.flow.next
      cases frames : machine.stack.frames with
      | nil => rw [machine.popFrame_of_empty frames]
      | cons frame older =>
          rw [shaped.popFrame_eq frame older frames]
          rfl
  | jumpToLabel label =>
      change (machine.jumpToLabel label).flow.next =
        (machine.program.labelLine? label).bind fun line =>
          machine.program.nextInstruction? (line + 1)
      unfold jumpToLabel labelAddress?
      cases machine.program.labelLine? label <;> rfl
  | setRegister name value =>
      change (machine.setRegister name value).2.flow.next = machine.flow.next
      unfold setRegister
      cases machine.registers.set name value <;> rfl
  | setPins range bits =>
      change (machine.setPins range bits).2.flow.next = machine.flow.next
      unfold setPins
      cases machine.pins.writeRange range bits <;> rfl
  | _ => rfl

theorem Shaped.flow_after_requests (shaped : machine.Shaped config) (requests : List Request) :
    (machine.after (requests.map .request)).flow.current = machine.flow.current ∧
      (machine.after (requests.map .request)).flow.next =
        machine.program.destination machine.flow.next requests := by
  induction requests generalizing machine with
  | nil => exact ⟨rfl, rfl⟩
  | cons request rest ih =>
      obtain ⟨current, next⟩ := ih (shaped.undergo (.request request))
      have program : (machine.serve request).2.program = machine.program :=
        shaped.undergo_program (.request request)
      change _ = (machine.serve request).2.flow.current at current
      change _ = (machine.serve request).2.program.destination
        (machine.serve request).2.flow.next rest at next
      rw [shaped.serve_current] at current
      rw [program, shaped.serve_next] at next
      exact ⟨current, next⟩

end Machine

namespace Interpreter

variable {config : Config} {program : Program} {catalog : Catalog}
  {interpreter start reached : Interpreter} {results : List (Except Fault Unit)} {fault : Fault}

theorem Leads.exists_after (leads : start.Leads results reached) :
    ∃ commands, reached = start.after commands := by
  induction leads with
  | here interpreter => exact ⟨[], rfl⟩
  | step rest ih =>
      obtain ⟨commands, same⟩ := ih
      exact ⟨.step :: commands, same⟩
  | pins operation rest ih =>
      obtain ⟨commands, same⟩ := ih
      exact ⟨.pins operation :: commands, same⟩

theorem step_eq_error (ok : interpreter.diagnostics.isOk = true)
    (fails : interpreter.step.result = .error fault) :
    interpreter.phase = .executing ∧
      interpreter.focus.performLine.result = .error fault ∧ fault.isFatal = true := by
  unfold step at fails
  cases phase : interpreter.phase with
  | faulted =>
      rw [interpreter.phase_eq_faulted_iff.mp phase] at ok
      cases ok
  | terminated => rw [phase] at fails; cases fails
  | sleeping => rw [phase] at fails; cases fails
  | waiting => rw [phase] at fails; cases fails
  | executing =>
      rw [phase] at fails
      change interpreter.focus.executeLine.result = .error fault at fails
      cases result : interpreter.focus.performLine.result with
      | ok value =>
          simp only [executeLine, result] at fails
          cases fails
      | error raised =>
          simp only [executeLine, result] at fails
          cases fatal : raised.isFatal with
          | false =>
              rw [fatal] at fails
              cases fails
          | true =>
              rw [fatal] at fails
              cases fails
              exact ⟨rfl, rfl, fatal⟩

theorem isOk_of_step_error (fails : interpreter.step.result = .error fault) :
    interpreter.step.interpreter.diagnostics.isOk = false := by
  cases ok : interpreter.diagnostics.isOk with
  | false => rw [(step_of_faulted ok).2, ok]
  | true =>
      obtain ⟨executing, raised, fatal⟩ := step_eq_error ok fails
      rw [Bool.eq_false_iff]
      intro stillOk
      rw [Diagnostics.isOk_iff, step_entries] at stillOk
      have isError : ∃ entry ∈ interpreter.stepRecord, entry.severity = .error := by
        rw [exists_mem_stepRecord_iff]
        exact ⟨fault, ⟨executing, raised⟩, by rw [fatal, if_pos rfl]⟩
      obtain ⟨entry, member, severity⟩ := isError
      exact stillOk entry (List.mem_append_right _ member) severity

theorem Leads.exists_first (leads : start.Leads results reached)
    (ok : start.diagnostics.isOk = true) (fails : ∃ fault, .error fault ∈ results) :
    ∃ earlier before fault rest, results = earlier ++ .error fault :: rest ∧
      (∀ result ∈ earlier, result = .ok ()) ∧ start.Leads earlier before ∧
      before.diagnostics.isOk = true ∧ before.step.result = .error fault ∧
      before.step.interpreter.Leads rest reached := by
  -- As long as no step has failed, no error is recorded, so the first failure is found by
  -- its result alone.
  induction leads with
  | here interpreter =>
      obtain ⟨fault, member⟩ := fails
      cases member
  | @step start reached results rest ih =>
      cases result : start.step.result with
      | error fault =>
          exact ⟨[], start, fault, results, rfl, by simp, .here start, ok, result, rest⟩
      | ok value =>
          rw [result] at fails
          obtain ⟨fault, member⟩ := fails
          have later : .error fault ∈ results := by
            rcases List.mem_cons.mp member with absurd | later
            · cases absurd
            · exact later
          obtain ⟨earlier, before, raised, after, split, succeed, leads, fine, fails, onward⟩ :=
            ih (isOk_step ok result) ⟨fault, later⟩
          refine ⟨start.step.result :: earlier, before, raised, after, ?_, ?_, .step leads, fine,
            fails, onward⟩
          · rw [split, result]
            rfl
          · intro other inList
            rcases List.mem_cons.mp inList with rfl | old
            · exact result
            · exact succeed other old
  | pins operation rest ih =>
      obtain ⟨earlier, before, raised, after, split, succeed, leads, fine, fails, onward⟩ :=
        ih ok fails
      exact ⟨earlier, before, raised, after, split, succeed, .pins operation leads, fine, fails,
        onward⟩

/-! ### After a failure -/

theorem run_of_faulted (failed : interpreter.diagnostics.isOk = false) (limit : Nat)
    (positive : 0 < limit) :
    (interpreter.run limit).interpreter = interpreter ∧
      (interpreter.run limit).result =
        if interpreter.machine.flow.next = none then .ok 0 else .error .faulted := by
  obtain ⟨left, rfl⟩ := Nat.exists_eq_succ_of_ne_zero (Nat.ne_of_gt positive)
  obtain ⟨refused, unchanged⟩ := step_of_faulted failed
  unfold run runFrom isTerminated Flow.isTerminated
  cases next : interpreter.machine.flow.next with
  | none => exact ⟨rfl, rfl⟩
  | some index =>
      simp only [Option.isNone_some, Bool.false_eq_true, if_false, refused, reduceCtorEq,
        and_true]
      exact unchanged

/-- The interpreter has failed at a line, with this next line, and refuses to go on. -/
structure FailedFor (index : Nat) (next : Option Nat) (interpreter : Interpreter) : Prop where
  current : interpreter.machine.flow.current = index
  next_eq : interpreter.machine.flow.next = next
  step : interpreter.step.result = .error .faulted ∧ interpreter.step.interpreter = interpreter
  run : ∀ limit, 0 < limit →
    (interpreter.run limit).interpreter = interpreter ∧
      (interpreter.run limit).result = if next = none then .ok 0 else .error .faulted

theorem failedFor_of_faulted (failed : interpreter.diagnostics.isOk = false) :
    interpreter.FailedFor interpreter.machine.flow.current interpreter.machine.flow.next where
  current := rfl
  next_eq := rfl
  step := step_of_faulted failed
  run := run_of_faulted failed

/-- A line that fails fatally stays the current one, and the next one is where its
behavior went last. -/
theorem Steady.flow_of_fatal (steady : interpreter.Steady config program catalog)
    (executing : interpreter.phase = .executing) (index : Nat)
    (next : interpreter.machine.flow.next = some index)
    (raised : interpreter.focus.performLine.result = .error fault)
    (fatal : fault.isFatal = true) :
    interpreter.step.interpreter.machine.flow.current = index ∧
      interpreter.step.interpreter.machine.flow.next =
        program.destination (some index) interpreter.focus.lineRequests := by
  have moved := steady.focus.shaped.flow_after_requests interpreter.focus.lineRequests
  rw [← performLine_machine, steady.focus.tracks.program_eq, focus_current index next] at moved
  have entered : interpreter.focus.machine.flow.next = some index := next
  rw [entered] at moved
  rw [step_of_executing executing, executeLine_machine, chooseNext_current, raised]
  refine ⟨moved.1, ?_⟩
  simp only [chooseNext, isFatal, fatal, Bool.true_or, if_true]
  exact moved.2

/-- A session in which a step has failed. The first failure is a fatal fault of a line,
which stays the current one. From then on steps are refused, and so are runs as long as
there is a next line: that is where the behavior of the line went last, and the line
itself if the behavior went nowhere, as all standard ones that fail. -/
theorem failed_session_stays_failed (config : Config) (mode : CommentMode) (source : String)
    (catalog : Catalog) (made : Interpreter)
    (accepted : create config (.ofSource mode source) catalog = .ok made)
    (commands : List Command) (failed : ∃ fault, .error fault ∈ made.stepResults commands) :
    ∃ earlier before index fault rest,
      made.stepResults commands = earlier ++ .error fault :: rest ∧
      (∀ result ∈ earlier, result = .ok ()) ∧
      made.Leads earlier before ∧
      before.step.interpreter.Leads rest (made.after commands) ∧
      before.machine.flow.next = some index ∧ before.Raises fault ∧ fault.isFatal = true ∧
      (made.after commands).FailedFor index
        ((Program.ofSource mode source).destination (some index) before.focus.lineRequests) ∧
      ((∀ request ∈ before.focus.lineRequests,
          request.destination? (.ofSource mode source) = none) ∨ catalog = .standard →
        (made.after commands).FailedFor index (some index)) := by
  obtain ⟨_valid, clean, isMade⟩ := create_eq_ok config _ catalog made accepted
  have ok : made.diagnostics.isOk = true := by
    rw [isMade]
    exact clean
  obtain ⟨earlier, before, fault, rest, split, succeed, leads, fine, fails, onward⟩ :=
    (made.leads_after commands).exists_first ok failed
  obtain ⟨executing, raised, fatal⟩ := step_eq_error fine fails
  obtain ⟨_ok, ⟨index, next⟩, _awake, _due⟩ := before.phase_eq_executing_iff.mp executing
  obtain ⟨session, rfl⟩ := leads.exists_after
  have steady := steady_of_session config mode source catalog made accepted session
  obtain ⟨flow, stillFailed⟩ := onward.flow_of_failed (isOk_of_step_error fails)
  have stays := failedFor_of_faulted stillFailed
  obtain ⟨current, destination⟩ := steady.flow_of_fatal executing index next raised fatal
  rw [flow, current, destination] at stays
  refine ⟨earlier, _, index, fault, rest, split, succeed, leads, onward, next,
    (steady.raises_iff clean).mpr ⟨executing, raised⟩, fatal, stays, ?_⟩
  rintro (nowhere | rfl)
  · rw [Program.destination_of_none _ _ _ nowhere] at stays
    exact stays
  · -- A standard operation that fails has not moved, so the destination is the line itself.
    obtain ⟨place, line, operation, executes⟩ :=
      exists_executes config mode source made accepted session executing
    have failedAt := executes.failedAt (Program.ofSource_indexed mode source) executing raised
    rw [(failedAt.fatal fatal).1] at destination
    obtain rfl : place = index := Option.some.inj (executes.next.symm.trans next)
    rw [← destination] at stays
    exact stays

/-- The last line of this program fails within a run; the host goes on asking. -/
theorem failed_session_stays_failed_at_end :
    ∃ made : Interpreter,
      create {} (.ofSource .skip "add 1\nret") .standard = .ok made ∧
      made.stepResults [.run 9, .step, .run 3] =
        [.ok (), .error .stackUnderflow, .error .faulted, .error .faulted] ∧
      (made.after [.run 9, .step, .run 3]).FailedFor 1 (some 1) := by
  obtain ⟨made, accepted, tested⟩ := exists_create_of_any {}
    (.ofSource .skip "add 1\nret") .standard
    (fun made =>
      decide (made.stepResults [.run 9, .step, .run 3] =
        [.ok (), .error .stackUnderflow, .error .faulted, .error .faulted]) &&
      (made.after [.run 9, .step, .run 3]).machine.flow.current == 1)
    (by decide +kernel)
  simp only [Bool.and_eq_true, decide_eq_true_eq, beq_iff_eq] at tested
  obtain ⟨results, current⟩ := tested
  obtain ⟨earlier, before, index, fault, rest, _split, _succeed, _leads, _onward, _next, _raises,
    _fatal, _stays, standard⟩ := failed_session_stays_failed _ _ _ _ made accepted
      [.run 9, .step, .run 3] ⟨.stackUnderflow, by rw [results]; decide⟩
  have failed := standard (Or.inr rfl)
  obtain rfl : 1 = index := current.symm.trans failed.current
  exact ⟨made, accepted, results, failed⟩

/-- Instructions of a host: one that goes beyond the program and then fails. -/
def leavingCatalog : Catalog :=
  ⟨[{ name := "host"
      parameters := []
      behavior := hostBehavior
        [[⟨.ask (.jump 5), false⟩, ⟨.fail .stackUnderflow, false⟩]] }]⟩

/-- After a line that has left the program and then failed, there is no next line, and a
run succeeds without a step although a step is refused. -/
theorem run_succeeds_after_failed_jump :
    ∃ made : Interpreter,
      create {} (.ofSource .skip "host") leavingCatalog = .ok made ∧
      made.step.result = .error .stackUnderflow ∧
      (made.after [.step]).machine.flow.next = none ∧
      (made.after [.step]).step.result = .error .faulted ∧
      ((made.after [.step]).run 1).result = .ok 0 := by
  obtain ⟨made, accepted, tested⟩ := exists_create_of_any {} (.ofSource .skip "host")
    leavingCatalog
    (fun made =>
      decide (made.step.result = .error .stackUnderflow) &&
      decide ((made.after [.step]).machine.flow.next = none) &&
      decide ((made.after [.step]).step.result = .error .faulted) &&
      decide (((made.after [.step]).run 1).result = .ok 0))
    (by decide +kernel)
  simp only [Bool.and_eq_true, decide_eq_true_eq] at tested
  obtain ⟨⟨⟨fails, ended⟩, refused⟩, succeeds⟩ := tested
  exact ⟨made, accepted, fails, ended, refused, succeeds⟩

end Interpreter

end PinMachine
