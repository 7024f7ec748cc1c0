import PinMachine.Proofs.Interpreter.Delay
import PinMachine.Proofs.Interpreter.PinIndependence

/-!
The life of a run. The diagnostics of an interpreter grow at their end, by the fault of
the line that a step executes and by nothing else, and their highest severity tells
whether a fatal fault is among them. A run that has failed stays as it is, and so does one
whose program has ended, whatever steps a host still asks for.
-/

namespace PinMachine

/-- Some entry has the severity, and no entry is more serious. -/
def Severity.IsHighest (severity : Severity) (entries : List Diagnostic) : Prop :=
  (∃ entry ∈ entries, entry.severity = severity) ∧
    ∀ entry ∈ entries, entry.severity ≤ severity

namespace Severity

theorem le_antisymm {one other : Severity} (below : one ≤ other) (above : other ≤ one) :
    one = other := by
  revert below above
  cases one <;> cases other <;> decide

theorem le_trans {one middle other : Severity} (first : one ≤ middle)
    (second : middle ≤ other) : one ≤ other :=
  Nat.le_trans first second

theorem max_cases (one other : Severity) :
    (max one other = one ∧ other ≤ one) ∨ (max one other = other ∧ one ≤ other) := by
  cases one <;> cases other <;> decide

theorem IsHighest.unique {one other : Severity} {entries : List Diagnostic}
    (first : one.IsHighest entries) (second : other.IsHighest entries) : one = other := by
  obtain ⟨⟨entry, member, rfl⟩, above⟩ := first
  obtain ⟨⟨another, alsoMember, rfl⟩, alsoAbove⟩ := second
  exact le_antisymm (alsoAbove entry member) (above another alsoMember)

end Severity

theorem highestSeverity_eq_none_iff (entries : List Diagnostic) :
    highestSeverity entries = none ↔ entries = [] := by
  cases entries with
  | nil => exact iff_of_true rfl rfl
  | cons entry rest => simp [highestSeverity]

theorem isHighest_of_highestSeverity (entries : List Diagnostic) (severity : Severity)
    (found : highestSeverity entries = some severity) : severity.IsHighest entries := by
  induction entries generalizing severity with
  | nil => cases found
  | cons entry rest ih =>
      change some (entry.severity.raise (highestSeverity rest)) = some severity at found
      obtain rfl := Option.some.inj found
      cases later : highestSeverity rest with
      | none =>
          rw [(highestSeverity_eq_none_iff rest).mp later]
          refine ⟨⟨entry, List.mem_cons_self, rfl⟩, ?_⟩
          intro other member
          rw [List.mem_singleton.mp member]
          exact Nat.le_refl _
      | some highest =>
          obtain ⟨⟨witness, member, same⟩, above⟩ := ih highest later
          rcases entry.severity.max_cases highest with ⟨raised, below⟩ | ⟨raised, below⟩
          · change (max entry.severity highest).IsHighest _
            rw [raised]
            refine ⟨⟨entry, List.mem_cons_self, rfl⟩, ?_⟩
            intro other inList
            rcases List.mem_cons.mp inList with rfl | old
            · exact Nat.le_refl _
            · exact Severity.le_trans (above other old) below
          · change (max entry.severity highest).IsHighest _
            rw [raised]
            refine ⟨⟨witness, List.mem_cons_of_mem _ member, same⟩, ?_⟩
            intro other inList
            rcases List.mem_cons.mp inList with rfl | old
            · exact below
            · exact above other old

namespace Diagnostics

theorem ofList_entries (diagnostics : Diagnostics) : ofList diagnostics.entries = diagnostics := by
  cases diagnostics with
  | mk newestFirst highest? highest_eq =>
      subst highest_eq
      simp [ofList, entries]

theorem isOk_iff (diagnostics : Diagnostics) :
    diagnostics.isOk = true ↔ ∀ entry ∈ diagnostics.entries, entry.severity ≠ .error := by
  rw [← isOk_ofList_iff, ofList_entries]

theorem highest?_eq_some_iff (diagnostics : Diagnostics) (severity : Severity) :
    diagnostics.highest? = some severity ↔ severity.IsHighest diagnostics.entries := by
  have mem_iff : ∀ highest : Severity,
      highest.IsHighest diagnostics.newestFirst ↔ highest.IsHighest diagnostics.entries := by
    intro highest
    simp only [Severity.IsHighest, entries, List.mem_reverse]
  rw [diagnostics.highest_eq, ← mem_iff]
  constructor
  · exact isHighest_of_highestSeverity _ severity
  · intro highest
    cases found : highestSeverity diagnostics.newestFirst with
    | none =>
        rw [(highestSeverity_eq_none_iff _).mp found] at highest
        obtain ⟨⟨entry, member, _same⟩, _above⟩ := highest
        cases member
    | some other =>
        rw [(isHighest_of_highestSeverity _ other found).unique highest]

theorem highest?_eq_none_iff (diagnostics : Diagnostics) :
    diagnostics.highest? = none ↔ diagnostics.entries = [] := by
  rw [diagnostics.highest_eq, highestSeverity_eq_none_iff, entries, List.reverse_eq_nil_iff]

end Diagnostics

namespace Interpreter

variable {interpreter start middle reached : Interpreter} {fault : Fault}
  {config : Config} {program : Program} {catalog : Catalog}

/-- Steps with these results, and pin operations between them, lead from one interpreter
to another. -/
inductive Leads : Interpreter → List (Except Fault Unit) → Interpreter → Prop where
  | here (interpreter : Interpreter) : Leads interpreter [] interpreter
  | step {start reached : Interpreter} {results : List (Except Fault Unit)}
      (rest : Leads start.step.interpreter results reached) :
      Leads start (start.step.result :: results) reached
  | pins {start reached : Interpreter} {results : List (Except Fault Unit)}
      (operation : Pins.Operation)
      (rest : Leads (start.obey (.pins operation)).interpreter results reached) :
      Leads start results reached

theorem Leads.append {earlier later : List (Except Fault Unit)}
    (first : start.Leads earlier middle) (second : middle.Leads later reached) :
    start.Leads (earlier ++ later) reached := by
  induction first with
  | here interpreter => exact second
  | step rest ih => exact .step (ih second)
  | pins operation rest ih => exact .pins operation (ih second)

theorem leads_runFrom (taken : Nat) (traces : List Trace) (left : Nat)
    (start : Interpreter) :
    start.Leads (runResults left start) (runFrom taken traces left start).interpreter := by
  induction left generalizing taken traces start with
  | zero => exact .here start
  | succ left ih =>
      unfold runResults runFrom
      by_cases ended : start.isTerminated
      · rw [if_pos ended, if_pos ended]
        exact .here start
      · rw [if_neg ended, if_neg ended]
        cases result : start.step.result with
        | ok value =>
            simp only [← result]
            apply Leads.step
            simp only [result]
            exact ih _ _ _
        | error fault =>
            simp only [← result]
            apply Leads.step
            simp only [result]
            exact .here _

theorem leads_after (start : Interpreter) (commands : List Command) :
    start.Leads (start.stepResults commands) (start.after commands) := by
  induction commands generalizing start with
  | nil => exact .here start
  | cons command rest ih =>
      have first : start.Leads (start.commandResults command)
          (start.obey command).interpreter := by
        cases command with
        | step => exact .step (.here _)
        | run limit => exact leads_runFrom 0 [] limit start
        | pins operation => exact .pins operation (.here _)
      exact first.append (ih _)

/-- The step executes a line, and the behavior of the line ends with the fault. -/
def Raises (interpreter : Interpreter) (fault : Fault) : Prop :=
  interpreter.phase = .executing ∧
    ∃ index entry, interpreter.machine.flow.next = some index ∧
      interpreter.dispatch[index]? = some (some entry) ∧
      ((entry.behavior entry.arguments).perform interpreter.focus.machine).result =
        .error fault

theorem Raises.performLine (raises : interpreter.Raises fault) :
    interpreter.focus.performLine.result = .error fault := by
  obtain ⟨_executing, index, entry, next, found, behaves⟩ := raises
  rw [← focus_current index next] at found
  rw [performLine_eq_perform interpreter.focus entry found]
  exact behaves

/-- In an accepted program, the fault of an executed line is one of its behavior. -/
theorem Steady.raises_iff (steady : interpreter.Steady config program catalog)
    (clean : (program.validate config catalog).isOk = true) :
    interpreter.Raises fault ↔
      interpreter.phase = .executing ∧
        interpreter.focus.performLine.result = .error fault := by
  constructor
  · intro raises
    exact ⟨raises.1, raises.performLine⟩
  · rintro ⟨executing, fails⟩
    obtain ⟨_ok, ⟨index, next⟩, _awake, _due⟩ :=
      interpreter.phase_eq_executing_iff.mp executing
    obtain ⟨entry, found⟩ :=
      exists_dispatch program config catalog clean index (steady.tracks.next index next)
    rw [← steady.dispatch_eq] at found
    refine ⟨executing, index, entry, next, found, ?_⟩
    rw [← focus_current index next] at found
    rw [← performLine_eq_perform interpreter.focus entry found]
    exact fails

/-! ### What a step records -/

/-- The fault of the line that a step executes, if it executes one that fails. -/
def stepRecord (interpreter : Interpreter) : List Diagnostic :=
  match interpreter.phase with
  | .executing =>
      recorded interpreter.focus.performLine.machine.program
        interpreter.focus.machine.flow.current interpreter.focus.performLine.result
  | _ => []

theorem step_entries (interpreter : Interpreter) :
    interpreter.step.interpreter.diagnostics.entries =
      interpreter.diagnostics.entries ++ interpreter.stepRecord := by
  unfold step stepRecord
  cases interpreter.phase with
  | faulted => exact (List.append_nil _).symm
  | terminated => exact (List.append_nil _).symm
  | sleeping => exact (List.append_nil _).symm
  | waiting => exact (List.append_nil _).symm
  | executing => exact interpreter.focus.executeLine_entries

/-- A step records at most one entry, an error or a warning, by what its line raised. -/
structure Records (interpreter : Interpreter) (added : List Diagnostic) : Prop where
  entries : interpreter.step.interpreter.diagnostics.entries =
    interpreter.diagnostics.entries ++ added
  single : added.length ≤ 1
  error_iff : (∃ entry ∈ added, entry.severity = .error) ↔
    ∃ fault, interpreter.Raises fault ∧ fault.isFatal = true
  warning_iff : (∃ entry ∈ added, entry.severity = .warning) ↔
    ∃ fault, interpreter.Raises fault ∧ fault.isFatal = false
  noInfo : ∀ entry ∈ added, entry.severity ≠ .info
  /-- A fatal fault is the result of the step. -/
  fatal : ∀ fault, interpreter.Raises fault → fault.isFatal = true →
    interpreter.step.result = .error fault
  /-- Any other fault does not fail the step. -/
  mild : ∀ fault, interpreter.Raises fault → fault.isFatal = false →
    interpreter.step.result = .ok ()

theorem exists_mem_stepRecord_iff (interpreter : Interpreter) (severity : Severity) :
    (∃ entry ∈ interpreter.stepRecord, entry.severity = severity) ↔
      ∃ fault, (interpreter.phase = .executing ∧
        interpreter.focus.performLine.result = .error fault) ∧
        (if fault.isFatal then Severity.error else .warning) = severity := by
  unfold stepRecord
  cases phase : interpreter.phase with
  | executing =>
      cases result : interpreter.focus.performLine.result with
      | ok value => simp [recorded]
      | error fault => simp [recorded, faultDiagnostic]
  | _ => simp

theorem stepRecord_length_le (interpreter : Interpreter) :
    interpreter.stepRecord.length ≤ 1 := by
  unfold stepRecord
  cases interpreter.phase with
  | executing => cases interpreter.focus.performLine.result <;> simp [recorded]
  | _ => simp

theorem Steady.records (steady : interpreter.Steady config program catalog)
    (clean : (program.validate config catalog).isOk = true) :
    interpreter.Records interpreter.stepRecord where
  entries := interpreter.step_entries
  single := interpreter.stepRecord_length_le
  error_iff := by
    rw [exists_mem_stepRecord_iff]
    simp only [← steady.raises_iff clean]
    simp
  warning_iff := by
    rw [exists_mem_stepRecord_iff]
    simp only [← steady.raises_iff clean]
    simp
  noInfo := by
    intro entry member isInfo
    obtain ⟨fault, _raised, severity⟩ :=
      (interpreter.exists_mem_stepRecord_iff .info).mp ⟨entry, member, isInfo⟩
    cases fatal : fault.isFatal <;> simp [fatal] at severity
  fatal := fun fault raises => step_result_of_fatal raises.1 fault raises.performLine
  mild := fun fault raises => step_result_of_mild raises.1 fault raises.performLine

/-- Along a session the diagnostics grow at their end, by one entry a step at most. -/
theorem Leads.entries {results : List (Except Fault Unit)} (leads : start.Leads results reached) :
    ∃ added, reached.diagnostics.entries = start.diagnostics.entries ++ added ∧
      added.length ≤ results.length := by
  induction leads with
  | here interpreter => exact ⟨[], (List.append_nil _).symm, Nat.le_refl _⟩
  | @step start reached results rest ih =>
      obtain ⟨added, grown, few⟩ := ih
      refine ⟨start.stepRecord ++ added, ?_, ?_⟩
      · rw [grown, step_entries, List.append_assoc]
      · have single := start.stepRecord_length_le
        rw [List.length_append, List.length_cons]
        omega
  | pins operation rest ih => exact ih

theorem step_of_faulted (failed : interpreter.diagnostics.isOk = false) :
    interpreter.step.result = .error .faulted ∧
      interpreter.step.interpreter = interpreter := by
  have faulted := interpreter.phase_eq_faulted_iff.mpr failed
  simp only [step, faulted, and_self]

theorem step_of_ended (ok : interpreter.diagnostics.isOk = true)
    (ended : interpreter.machine.flow.next = none) :
    interpreter.step.result = .ok () ∧ interpreter.step.interpreter = interpreter := by
  have terminated := interpreter.phase_eq_terminated_iff.mpr ⟨ok, ended⟩
  simp only [step, terminated, and_self]

theorem Leads.flow_of_failed {results : List (Except Fault Unit)}
    (leads : start.Leads results reached) (failed : start.diagnostics.isOk = false) :
    reached.machine.flow = start.machine.flow ∧ reached.diagnostics.isOk = false := by
  induction leads with
  | here interpreter => exact ⟨rfl, failed⟩
  | @step start reached results rest ih =>
      have unchanged := (step_of_faulted failed).2
      rw [unchanged] at ih
      exact ih failed
  | pins operation rest ih => exact ih failed

theorem after_ended (ok : interpreter.diagnostics.isOk = true)
    (ended : interpreter.machine.flow.next = none) (commands : List Command) :
    (interpreter.after commands).diagnostics.isOk = true ∧
      (interpreter.after commands).machine.flow.next = none := by
  apply after_preserves fun reached =>
    reached.diagnostics.isOk = true ∧ reached.machine.flow.next = none
  · intro reached holds
    rw [(step_of_ended holds.1 holds.2).2]
    exact holds
  · intro reached operation holds
    exact holds
  · exact ⟨ok, ended⟩

/-! ### The life of a run -/

/-- What holds of an interpreter and of everything that a host still does with it. -/
structure Lifecycle (interpreter : Interpreter) : Prop where
  /-- The highest severity is the one among the entries. -/
  highest : ∀ severity, interpreter.diagnostics.highest? = some severity ↔
    severity.IsHighest interpreter.diagnostics.entries
  empty : interpreter.diagnostics.highest? = none ↔ interpreter.diagnostics.entries = []
  isOk : interpreter.diagnostics.isOk = true ↔
    ∀ entry ∈ interpreter.diagnostics.entries, entry.severity ≠ .error
  records : ∃ added, interpreter.Records added
  grows : ∀ later : List Command, ∃ added,
    (interpreter.after later).diagnostics.entries = interpreter.diagnostics.entries ++ added ∧
      added.length ≤ (interpreter.stepResults later).length
  /-- After a fatal fault, every step is refused and changes nothing. -/
  failed : (∃ entry ∈ interpreter.diagnostics.entries, entry.severity = .error) →
    ∀ later : List Command,
      (interpreter.after later).step.result = .error .faulted ∧
        (interpreter.after later).step.interpreter = interpreter.after later
  /-- After the end of the program, every step succeeds and changes nothing. -/
  ended : interpreter.machine.flow.next = none → interpreter.diagnostics.isOk = true →
    ∀ later : List Command,
      (interpreter.after later).step.result = .ok () ∧
        (interpreter.after later).step.interpreter = interpreter.after later

/-- In every session of an accepted program, under any catalog, diagnostics are recorded
as the lines raise faults, and runs that have failed or ended stay as they are. -/
theorem session_lifecycle (config : Config) (mode : CommentMode) (source : String)
    (catalog : Catalog) (made : Interpreter)
    (accepted : create config (.ofSource mode source) catalog = .ok made)
    (commands : List Command) : (made.after commands).Lifecycle := by
  have steady := steady_of_session config mode source catalog made accepted commands
  have clean := (create_eq_ok config _ catalog made accepted).2.1
  constructor
  · exact (made.after commands).diagnostics.highest?_eq_some_iff
  · exact (made.after commands).diagnostics.highest?_eq_none_iff
  · exact (made.after commands).diagnostics.isOk_iff
  · exact ⟨_, steady.records clean⟩
  · intro later
    exact ((made.after commands).leads_after later).entries
  · rintro ⟨entry, member, isError⟩ later
    apply step_of_faulted
    apply (((made.after commands).leads_after later).flow_of_failed _).2
    rw [Bool.eq_false_iff]
    intro ok
    exact (made.after commands).diagnostics.isOk_iff.mp ok entry member isError
  · intro next ok later
    have kept := after_ended ok next later
    exact step_of_ended kept.1 kept.2

/-- A warning of the checks, a division by zero that the run survives, and a return
without a call that it does not; the host goes on asking. -/
theorem session_lifecycle_divided :
    ∃ made : Interpreter,
      create { pinCount := 1 } (.ofSource .skip ":top 1\ndiv 0\nret") .standard = .ok made ∧
      (made.after [.run 2]).diagnostics.entries.map Diagnostic.severity =
        [.warning, .warning, .error] ∧
      (made.after [.run 2]).diagnostics.highest? = some .error ∧
      ((made.after [.run 2]).after [.pins (.setInput 0 true), .run 3]).step.result =
        .error .faulted ∧
      (made.after [.run 1]).Lifecycle ∧ (made.after [.run 2]).Lifecycle := by
  obtain ⟨made, accepted, shown⟩ := exists_create_of_any { pinCount := 1 }
    (.ofSource .skip ":top 1\ndiv 0\nret") .standard
    (fun made => (made.after [.run 2]).diagnostics.entries.map Diagnostic.severity ==
      [.warning, .warning, .error])
    (by decide +kernel)
  have severities := eq_of_beq shown
  have failed := session_lifecycle _ _ _ _ made accepted [.run 2]
  have isError : ∃ entry ∈ (made.after [.run 2]).diagnostics.entries,
      entry.severity = .error := by
    rw [← List.mem_map, severities]
    decide
  refine ⟨made, accepted, severities, ?_, (failed.failed isError _).1,
    session_lifecycle _ _ _ _ made accepted [.run 1], failed⟩
  rw [failed.highest]
  refine ⟨isError, ?_⟩
  intro entry _member
  cases entry.severity <;> decide

end Interpreter

end PinMachine
