import PinMachine.Proofs.Interpreter.Invariant
import PinMachine.Proofs.Program.Coverage

/-!
Places of diagnostics. Problems are reported by the reading of a source, by the checks of
a program and by the lines of a run. Each of them has a span inside a line of the source:
the span of a token, of several tokens in a row, of the characters that could not be read,
or of a whole line that has a character at least.
-/

namespace PinMachine

/-- The span of a diagnostic is a part of one of the lines. -/
def Diagnostic.PointsInto (diagnostic : Diagnostic) (lines : List (List Char)) : Prop :=
  ∃ text, lines[diagnostic.line]? = some text ∧
    diagnostic.startColumn ≤ diagnostic.endColumn ∧ diagnostic.endColumn < text.length

def Diagnostics.PointInto (diagnostics : Diagnostics) (lines : List (List Char)) : Prop :=
  ∀ entry ∈ diagnostics.entries, entry.PointsInto lines

theorem Diagnostics.entries_ofList (entries : List Diagnostic) :
    (Diagnostics.ofList entries).entries = entries :=
  List.reverse_reverse entries

theorem Diagnostics.pointInto_ofList {entries : List Diagnostic} {lines : List (List Char)}
    (inside : ∀ entry ∈ entries, entry.PointsInto lines) :
    (Diagnostics.ofList entries).PointInto lines := by
  intro entry member
  rw [entries_ofList] at member
  exact inside entry member

theorem Diagnostics.PointInto.push {diagnostics : Diagnostics} {lines : List (List Char)}
    (inside : diagnostics.PointInto lines) (entry : Diagnostic)
    (points : entry.PointsInto lines) : (diagnostics.push entry).PointInto lines := by
  intro other member
  rcases List.mem_cons.mp (List.mem_reverse.mp member) with rfl | old
  · exact points
  · exact inside other (List.mem_reverse.mpr old)

/-- A line found in a source: its tokens have their place in it, and so have the
characters that could not be read. -/
structure Line.Placed (line : Line) (lines : List (List Char)) : Prop where
  text : lines[line.index]? = some line.text
  line_eq : ∀ token ∈ line.tokens, token.line = line.index
  standing : ∀ token ∈ line.tokens, token.StandsIn line.text
  ordered : line.tokens.Pairwise fun earlier later => earlier.endColumn < later.startColumn
  unparsed : ∀ column, line.unparsed = some column → column < line.text.length

theorem Program.line_placed (mode : CommentMode) (source : String) (line : Line)
    (member : line ∈ (Program.ofSource mode source).lines) :
    line.Placed (splitLines source.toList) := by
  obtain ⟨stop, covered, stops⟩ := Program.line_covered mode source line member
  constructor
  · exact Program.text_index mode source line member
  · obtain ⟨index, offset, text, rfl⟩ := Program.exists_ofText mode source line member
    exact (Line.scans_ofText mode index offset text).token_line
  · exact covered.standing
  · exact covered.ordered
  · intro column unparsed
    cases stops with
    | ended complete reported => cases unparsed.symm.trans complete
    | stuck stop found inside unreadable reported =>
        cases unparsed.symm.trans found
        exact inside
    | comment stop skips complete mark free first reported =>
        cases unparsed.symm.trans complete

namespace Line.Placed

variable {line : Line} {lines : List (List Char)}

theorem tokenProblem (placed : line.Placed lines) (token : Token) (member : token ∈ line.tokens)
    (message : String) : (token.problem message).PointsInto lines := by
  have standing := placed.standing token member
  refine ⟨line.text, ?_, standing.forward, standing.inside⟩
  change lines[token.line]? = some line.text
  rw [placed.line_eq token member]
  exact placed.text

theorem toEnd (placed : line.Placed lines) (severity : Severity) (column : Nat)
    (message : String) (inside : column < line.text.length) :
    Diagnostic.PointsInto
      { severity := severity
        line := line.index
        startColumn := column
        endColumn := line.endColumn
        message := message } lines := by
  refine ⟨line.text, placed.text, ?_, ?_⟩
  · change column ≤ line.text.length - 1
    omega
  · change line.text.length - 1 < line.text.length
    omega

theorem text_length_pos (placed : line.Placed lines) (filled : line.tokens ≠ []) :
    0 < line.text.length := by
  obtain ⟨token, member⟩ := List.exists_mem_of_ne_nil _ filled
  have inside := (placed.standing token member).inside
  omega

theorem lexicalError (placed : line.Placed lines) (entry : Diagnostic)
    (reported : line.lexicalError? = some entry) : entry.PointsInto lines := by
  obtain ⟨column, unparsed, rfl⟩ := Option.map_eq_some_iff.mp reported
  exact placed.toEnd .error column unparsableMessage (placed.unparsed column unparsed)

end Line.Placed

theorem Line.arguments_sublist (line : Line) : line.arguments.Sublist line.tokens :=
  List.filter_sublist.trans (List.tail_sublist _)

/-- The diagnostics that the check of a line may report, by the place that they have. -/
inductive Line.Reports (line : Line) : Diagnostic → Prop
  | unparsed (column : Nat) (found : line.unparsed = some column) :
      line.Reports
        { severity := .error
          line := line.index
          startColumn := column
          endColumn := line.endColumn
          message := unparsableMessage }
  | trailing (first last : Token) (atHead : line.arguments.head? = some first)
      (atEnd : line.arguments.getLast? = some last) :
      line.Reports
        { severity := .warning
          line := line.index
          startColumn := first.startColumn
          endColumn := last.endColumn
          message := "Tokens after a label declaration are ignored" }
  | whole (filled : line.tokens ≠ []) (message : String) : line.Reports (line.problem message)
  | argument (token : Token) (given : token ∈ line.arguments) (message : String) :
      line.Reports (token.problem message)

namespace Line

variable {line : Line} {lines : List (List Char)}

theorem reports_checkTokens (line : Line) (scope : Scope) :
    ∀ entry ∈ line.arguments.flatMap scope.checkToken, line.Reports entry := by
  intro entry reported
  obtain ⟨token, given, found⟩ := List.mem_flatMap.mp reported
  obtain ⟨message, rfl⟩ := scope.checkToken_reports token entry found
  exact .argument token given message

theorem reports_checkTrailing (line : Line) :
    ∀ entry ∈ line.checkTrailing, line.Reports entry := by
  intro entry reported
  unfold Line.checkTrailing at reported
  split at reported
  · rename_i first last atHead atEnd
    obtain rfl := List.mem_singleton.mp reported
    exact .trailing first last atHead atEnd
  · cases reported

theorem reports_checkSignature (line : Line) (filled : line.tokens ≠ []) (catalog : Catalog) :
    ∀ entry ∈ line.checkSignature catalog, line.Reports entry := by
  intro entry reported
  unfold Line.checkSignature at reported
  split at reported
  · cases reported
  · split at reported
    · cases reported
    · obtain rfl := List.mem_singleton.mp reported
      exact .whole filled _

theorem reports_check (line : Line) (scope : Scope) (catalog : Catalog) :
    ∀ entry ∈ line.check scope catalog, line.Reports entry := by
  intro entry reported
  unfold Line.check at reported
  split at reported
  · rename_i column unparsed
    obtain rfl := List.mem_singleton.mp reported
    exact .unparsed column unparsed
  · split at reported
    · cases reported
    · rename_i notPassed
      have filled : line.tokens ≠ [] := by
        intro none
        apply notPassed
        simp [Line.isEmpty, none]
      split at reported
      · rcases List.mem_append.mp reported with trailing | token
        · exact line.reports_checkTrailing entry trailing
        · exact line.reports_checkTokens scope entry token
      · split at reported
        · rcases List.mem_append.mp reported with signature | token
          · exact line.reports_checkSignature filled catalog entry signature
          · exact line.reports_checkTokens scope entry token
        · obtain rfl := List.mem_singleton.mp reported
          exact .whole filled _

theorem Reports.line_eq {entry : Diagnostic} (reports : line.Reports entry)
    (placed : line.Placed lines) : entry.line = line.index := by
  cases reports with
  | argument token given message =>
      exact placed.line_eq token (line.arguments_sublist.subset given)
  | _ => rfl

/-- The warning about trailing tokens runs from the first argument to the last one. -/
theorem Reports.pointsInto {entry : Diagnostic} (reports : line.Reports entry)
    (placed : line.Placed lines) : entry.PointsInto lines := by
  have sublist := line.arguments_sublist
  cases reports with
  | unparsed column found =>
      exact placed.toEnd .error column unparsableMessage (placed.unparsed column found)
  | whole filled message =>
      exact placed.toEnd .error 0 message (placed.text_length_pos filled)
  | argument token given message =>
      exact placed.tokenProblem token (sublist.subset given) message
  | trailing first last atHead atEnd =>
      have ordered := placed.ordered.sublist sublist
      have lastMember := List.mem_of_getLast? atEnd
      have firstStands := placed.standing first (sublist.subset (List.mem_of_head? atHead))
      have lastStands := placed.standing last (sublist.subset lastMember)
      refine ⟨line.text, placed.text, ?_, lastStands.inside⟩
      obtain ⟨others, split⟩ := List.head?_eq_some_iff.mp atHead
      rw [split] at ordered lastMember
      rcases List.mem_cons.mp lastMember with rfl | behind
      · exact firstStands.forward
      · have before := (List.pairwise_cons.mp ordered).1 last behind
        have firstForward := firstStands.forward
        have lastForward := lastStands.forward
        change first.startColumn ≤ last.endColumn
        omega

end Line

theorem Scope.declareLabel_explains (scope : Scope) (token : Token) :
    token.Explains (scope.declareLabel token).2 := by
  unfold declareLabel
  split
  · exact Token.explains_problem (.unreadable _)
  · split
    · exact Token.explains_problem (.repeatedLabel _)
    · exact Token.explains_nil

theorem Scope.declareLabelsFrom_reports (found : List Diagnostic) (scope : Scope)
    (tokens : List Token) :
    ∀ entry ∈ (scope.declareLabelsFrom found tokens).2,
      entry ∈ found ∨ ∃ token ∈ tokens, ∃ message, TokenMessage message ∧
        entry = token.problem message := by
  induction tokens generalizing found scope with
  | nil =>
      intro entry member
      exact Or.inl (List.mem_reverse.mp member)
  | cons token rest ih =>
      intro entry member
      rcases ih _ _ entry member with before | ⟨later, inRest, explained⟩
      · rcases List.mem_append.mp before with new | old
        · have explained := scope.declareLabel_explains token entry (List.mem_reverse.mp new)
          exact Or.inr ⟨token, List.mem_cons_self, explained⟩
        · exact Or.inl old
      · exact Or.inr ⟨later, List.mem_cons_of_mem _ inRest, explained⟩

theorem Program.mem_labelTokens (program : Program) (token : Token)
    (declares : token ∈ program.labelTokens) :
    ∃ line ∈ program.lines, line.isLabel = true ∧ token ∈ line.tokens := by
  obtain ⟨line, isLabel, first⟩ := List.mem_filterMap.mp declares
  obtain ⟨member, starts⟩ := List.mem_filter.mp isLabel
  exact ⟨line, member, starts, List.mem_of_head? first⟩

theorem Program.validate_pointInto (mode : CommentMode) (source : String) (config : Config)
    (catalog : Catalog) :
    ((Program.ofSource mode source).validate config catalog).PointInto
      (splitLines source.toList) := by
  apply Diagnostics.pointInto_ofList
  intro entry reported
  rcases List.mem_append.mp reported with repeated | checked
  · rcases Scope.declareLabelsFrom_reports _ _ _ entry repeated with
      none | ⟨token, declares, message, _said, rfl⟩
    · cases none
    · obtain ⟨line, member, _isLabel, inLine⟩ := Program.mem_labelTokens _ token declares
      exact (Program.line_placed mode source line member).tokenProblem token inLine message
  · obtain ⟨line, member, found⟩ := List.mem_flatMap.mp checked
    exact (line.reports_check _ catalog entry found).pointsInto
      (Program.line_placed mode source line member)

theorem Program.lexicalErrors_pointInto (mode : CommentMode) (source : String) :
    (Program.ofSource mode source).lexicalErrors.PointInto (splitLines source.toList) := by
  apply Diagnostics.pointInto_ofList
  intro entry reported
  obtain ⟨line, member, found⟩ := List.mem_filterMap.mp reported
  exact (Program.line_placed mode source line member).lexicalError entry found

/-! ### Runs -/

namespace Interpreter

variable {config : Config} {program : Program} {catalog : Catalog} {interpreter : Interpreter}
  {lines : List (List Char)}

theorem faultDiagnostic_pointsInto (placed : ∀ line ∈ program.lines, line.Placed lines)
    (indexed : Indexed program.lines) (index : Nat)
    (holds : program.holdsInstruction index = true) (fault : Fault) :
    (faultDiagnostic program index fault).PointsInto lines := by
  obtain ⟨line, place, isInstruction⟩ := (program.holdsInstruction_iff index).mp holds
  have inLines := placed line (List.mem_of_getElem? place)
  obtain ⟨name, instruction⟩ := Option.isSome_iff_exists.mp isInstruction
  obtain ⟨word, row, column, rest, shape, _named⟩ :=
    line.tokens_of_instructionName? name instruction
  have filled : line.tokens ≠ [] := by
    rw [shape]
    exact List.cons_ne_nil _ _
  obtain rfl := indexed index line place
  unfold faultDiagnostic
  rw [place]
  exact inLines.toEnd _ 0 fault.message (inLines.text_length_pos filled)

theorem executeLine_diagnostics (interpreter : Interpreter) :
    interpreter.executeLine.interpreter.diagnostics = interpreter.diagnostics ∨
      ∃ fault, interpreter.executeLine.interpreter.diagnostics = interpreter.diagnostics.push
        (faultDiagnostic interpreter.performLine.machine.program
          interpreter.machine.flow.current fault) := by
  cases result : interpreter.performLine.result with
  | ok value =>
      left
      simp only [executeLine, result]
  | error fault =>
      right
      refine ⟨fault, ?_⟩
      simp only [executeLine, result]
      rfl

theorem Steady.step_pointInto (steady : interpreter.Steady config program catalog)
    (indexed : Indexed program.lines) (placed : ∀ line ∈ program.lines, line.Placed lines)
    (inside : interpreter.diagnostics.PointInto lines) :
    interpreter.step.interpreter.diagnostics.PointInto lines := by
  unfold Interpreter.step
  cases phase : interpreter.phase with
  | faulted => exact inside
  | terminated => exact inside
  | sleeping => exact inside
  | waiting => exact inside
  | executing =>
      obtain ⟨_ok, ⟨index, next⟩, _awake, _due⟩ :=
        interpreter.phase_eq_executing_iff.mp phase
      have current := focus_current index next
      have holds := steady.tracks.next index next
      change interpreter.focus.executeLine.interpreter.diagnostics.PointInto lines
      rcases interpreter.focus.executeLine_diagnostics with kept | ⟨fault, recorded⟩
      · rw [kept]
        exact inside
      · have tracks := (steady.focus.performLine indexed (by rw [current]; exact holds)).2
        rw [tracks.program_eq, current] at recorded
        have points := faultDiagnostic_pointsInto placed indexed index holds fault
        rw [recorded]
        exact inside.push _ points

theorem Steady.after_pointInto (steady : interpreter.Steady config program catalog)
    (indexed : Indexed program.lines) (placed : ∀ line ∈ program.lines, line.Placed lines)
    (inside : interpreter.diagnostics.PointInto lines) (commands : List Command) :
    (interpreter.after commands).diagnostics.PointInto lines := by
  -- That the recorded line is an instruction line is known of steady interpreters only.
  have kept := after_preserves
    (fun reached => reached.Steady config program catalog ∧ reached.diagnostics.PointInto lines)
    (fun reached holds => ⟨holds.1.step indexed, holds.1.step_pointInto indexed placed holds.2⟩)
    (fun reached operation holds => ⟨holds.1.obey_pins operation, holds.2⟩)
    interpreter commands ⟨steady, inside⟩
  exact kept.2

/-- Reading, checking and running a source report problems inside the source only. -/
theorem diagnostics_point_into_source (mode : CommentMode) (source : String) (config : Config)
    (catalog : Catalog) :
    (Program.ofSource mode source).lexicalErrors.PointInto (splitLines source.toList) ∧
      ((Program.ofSource mode source).validate config catalog).PointInto
        (splitLines source.toList) ∧
      ∀ made, create config (.ofSource mode source) catalog = .ok made →
        ∀ commands, (made.after commands).diagnostics.PointInto (splitLines source.toList) := by
  have checked := Program.validate_pointInto mode source config catalog
  refine ⟨Program.lexicalErrors_pointInto mode source, checked, ?_⟩
  intro made accepted commands
  have indexed := Program.ofSource_indexed mode source
  have start := Steady.of_create made indexed (Program.ofSource_lines_pos mode source) accepted
  apply start.after_pointInto indexed (Program.line_placed mode source)
  obtain ⟨_valid, _clean, rfl⟩ := create_eq_ok config _ catalog made accepted
  exact checked

/-- A run starts with a warning of the checks and then records faults. -/
theorem diagnostics_point_into_source_divided :
    ∃ made : Interpreter,
      create {} (.ofSource .skip ":top 1\ndiv 0\nret") .standard = .ok made ∧
      (made.after [.run 2]).diagnostics.entries.map
        (fun entry => (entry.line, entry.startColumn, entry.endColumn)) =
          [(0, 5, 5), (1, 0, 4), (2, 0, 2)] ∧
      (made.after [.run 2]).diagnostics.PointInto
        (splitLines (":top 1\ndiv 0\nret" : String).toList) := by
  obtain ⟨made, accepted, recorded⟩ := exists_create_of_any {}
    (.ofSource .skip ":top 1\ndiv 0\nret") .standard
    (fun made => (made.after [.run 2]).diagnostics.entries.map
      (fun entry => (entry.line, entry.startColumn, entry.endColumn)) ==
        [(0, 5, 5), (1, 0, 4), (2, 0, 2)])
    (by decide +kernel)
  exact ⟨made, accepted, by simpa using recorded,
    (diagnostics_point_into_source .skip _ {} .standard).2.2 made accepted [.run 2]⟩

end Interpreter

end PinMachine
