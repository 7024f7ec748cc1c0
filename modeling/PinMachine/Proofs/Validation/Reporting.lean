import PinMachine.Proofs.Interpreter.Spans
import PinMachine.Proofs.Validation.WellFormed

/-!
What the checks report of a line. The diagnostics with the number of a line are those of
the line's own check, after the one for a repeated declaration. A line that starts with a
label or an instruction reports every problem of every argument, whatever else is wrong
with the line or with others. A line with any other start is left after one error about
the start, so problems of its arguments come to light only once the start is mended.
-/

namespace PinMachine

/-- The names that a program may use: the registers and pins of the configuration, and every
label that some line declares. -/
def Program.names (program : Program) (config : Config) : Scope :=
  { registers := config.registerNames
    labels := program.lines.filterMap Line.labelName?
    pinCount := config.pins }

/-- The check of a token asks whether a label is declared, not how often or where. -/
theorem Scope.checkToken_congr (scope other : Scope)
    (registers : scope.registers = other.registers) (pinCount : scope.pinCount = other.pinCount)
    (labels : ∀ name, name ∈ scope.labels ↔ name ∈ other.labels) (token : Token) :
    scope.checkToken token = other.checkToken token := by
  have checkLabel : scope.checkLabel token = other.checkLabel token := by
    unfold Scope.checkLabel
    cases token.lexeme.readName with
    | error error => rfl
    | ok name => simp only [labels]
  unfold Scope.checkToken
  cases token.kind with
  | register => simp only [checkRegister, registers]
  | labelArgument => exact checkLabel
  | pin => simp only [checkPin, pinCount]
  | pinRange => simp only [checkPinRange, pinCount]
  | pinRangeLength => simp only [checkPinRange, pinCount]
  | _ => rfl

theorem Program.checkToken_names (program : Program) (config : Config) (token : Token) :
    (program.names config).checkToken token = (program.scope config).checkToken token := by
  apply Scope.checkToken_congr
  · exact (program.scope_registers config).symm
  · exact (program.scope_pinCount config).symm
  · intro name
    rw [program.mem_scope_labels_iff config]
    exact List.mem_filterMap

namespace Line

variable {line : Line}

theorem check_of_isLabel (line : Line) (scope : Scope) (catalog : Catalog)
    (complete : line.unparsed = none) (starts : line.isLabel = true) :
    line.check scope catalog =
      line.checkTrailing ++ line.arguments.flatMap scope.checkToken := by
  have shown : (line.isEmpty || line.isComment) = false := by
    unfold Line.isLabel labelName? at starts
    unfold isEmpty isComment
    split at starts
    · rename_i name place column rest shape
      rw [shape]
      cases rest <;> rfl
    · cases starts
  simp only [check, complete, shown, starts, Bool.false_eq_true, if_false, if_true]

/-- A line with arguments but without a label or an instruction is not looked at any
further. -/
theorem check_of_misplaced (line : Line) (scope : Scope) (catalog : Catalog)
    (complete : line.unparsed = none) (given : line.arguments ≠ [])
    (notLabel : line.isLabel = false) (notInstruction : line.isInstruction = false) :
    line.check scope catalog =
      [line.problem "Line must start with an instruction or label"] := by
  have shown : (line.isEmpty || line.isComment) = false := by
    rw [Bool.eq_false_iff]
    exact fun blank => given (arguments_of_blank blank)
  simp only [check, complete, shown, notLabel, notInstruction, Bool.false_eq_true, if_false]

theorem Placed.filter_check {lines : List (List Char)} (placed : line.Placed lines)
    (scope : Scope) (catalog : Catalog) (index : Nat) :
    (line.check scope catalog).filter (fun entry => entry.line == index) =
      if line.index == index then line.check scope catalog else [] := by
  have places : ∀ entry ∈ line.check scope catalog, entry.line = line.index :=
    fun entry reported => (line.reports_check _ catalog entry reported).line_eq placed
  by_cases same : line.index == index
  · rw [if_pos same, List.filter_eq_self]
    intro entry reported
    rw [places entry reported]
    exact same
  · rw [if_neg same, List.filter_eq_nil_iff]
    intro entry reported
    rw [places entry reported]
    exact same

end Line

namespace Program

theorem validate_entries (program : Program) (config : Config) (catalog : Catalog) :
    (program.validate config catalog).entries =
      ((Scope.ofConfig config).declareLabels program.labelTokens).2 ++
        program.lines.flatMap fun line => line.check (program.scope config) catalog :=
  Diagnostics.entries_ofList _

theorem repeated_line (mode : CommentMode) (source : String) (config : Config)
    (entry : Diagnostic)
    (reported : entry ∈ ((Scope.ofConfig config).declareLabels
      (Program.ofSource mode source).labelTokens).2) :
    ∃ line ∈ (Program.ofSource mode source).lines, line.isLabel = true ∧
      entry.line = line.index := by
  rcases Scope.declareLabelsFrom_reports _ _ _ entry reported with
    none | ⟨token, declares, message, _said, rfl⟩
  · cases none
  · obtain ⟨line, member, isLabel, inLine⟩ := mem_labelTokens _ token declares
    exact ⟨line, member, isLabel, (line_placed mode source line member).line_eq token inLine⟩

private theorem flatMap_if {α β : Type} (keep : α → Bool) (values : α → List β) (items : List α) :
    items.flatMap (fun item => if keep item then values item else []) =
      (items.filter keep).flatMap values := by
  induction items with
  | nil => rfl
  | cons item rest ih =>
      rw [List.flatMap_cons, List.filter_cons, ih]
      cases keep item <;> rfl

theorem validate_entries_at (mode : CommentMode) (source : String) (config : Config)
    (catalog : Catalog) (line : Line) (member : line ∈ (Program.ofSource mode source).lines)
    (notLabel : line.isLabel = false) :
    ((Program.ofSource mode source).validate config catalog).entries.filter
        (fun entry => entry.line == line.index) =
      line.check ((Program.ofSource mode source).scope config) catalog := by
  have indexed := Program.ofSource_indexed mode source
  have placed := Program.line_placed mode source
  have declared := repeated_line mode source config
  generalize Program.ofSource mode source = program at *
  have repeated : (((Scope.ofConfig config).declareLabels program.labelTokens).2).filter
      (fun entry => entry.line == line.index) = [] := by
    rw [List.filter_eq_nil_iff]
    intro entry reported same
    obtain ⟨other, inProgram, isLabel, place⟩ := declared entry reported
    have alone := indexed.filter_index line member
    have found : other ∈ program.lines.filter (fun other => other.index == line.index) := by
      rw [List.mem_filter, ← place]
      exact ⟨inProgram, same⟩
    rw [alone, List.mem_singleton] at found
    rw [found, notLabel] at isLabel
    cases isLabel
  have apart : ∀ other ∈ program.lines,
      (other.check (program.scope config) catalog).filter
          (fun entry => entry.line == line.index) =
        if other.index == line.index then other.check (program.scope config) catalog else [] :=
    fun other inProgram => (placed other inProgram).filter_check _ catalog line.index
  rw [validate_entries, List.filter_append, repeated, List.nil_append, List.filter_flatMap,
    List.flatMap_congr apart, flatMap_if, indexed.filter_index line member,
    List.flatMap_singleton]

theorem checkToken_reported (program : Program) (config : Config) (catalog : Catalog) (line : Line)
    (member : line ∈ program.lines) (complete : line.unparsed = none)
    (starts : line.isLabel = true ∨ line.isInstruction = true) (token : Token)
    (given : token ∈ line.arguments) (problem : Diagnostic)
    (found : problem ∈ (program.scope config).checkToken token) :
    problem ∈ (program.validate config catalog).entries := by
  have argument : problem ∈ line.arguments.flatMap (program.scope config).checkToken :=
    List.mem_flatMap.mpr ⟨token, given, found⟩
  have reported : problem ∈ line.check (program.scope config) catalog := by
    rcases starts with isLabel | isInstruction
    · rw [line.check_of_isLabel _ catalog complete isLabel]
      exact List.mem_append_right _ argument
    · obtain ⟨name, instruction⟩ := Option.isSome_iff_exists.mp isInstruction
      rw [line.check_of_instructionName? _ catalog name instruction complete]
      exact List.mem_append_right _ argument
  rw [validate_entries]
  exact List.mem_append_right _ (List.mem_flatMap.mpr ⟨line, member, reported⟩)

/-- Of a line that is read to its end, all problems of all arguments are reported, whatever
else is wrong, or none: all if the line starts with a label or an instruction, and none with
any other start, where the error about the start is the only one of the line. -/
theorem argument_problems_reported_iff (mode : CommentMode) (source : String) (config : Config)
    (catalog : Catalog) (line : Line) (member : line ∈ (ofSource mode source).lines)
    (complete : line.unparsed = none) (token : Token) (behind : token ∈ line.tokens.tail)
    (noComment : token.isComment = false) (problem : Diagnostic)
    (found : problem ∈ ((ofSource mode source).names config).checkToken token) :
    (problem ∈ ((ofSource mode source).validate config catalog).entries ↔
        line.isLabel = true ∨ line.isInstruction = true) ∧
      (¬ (line.isLabel = true ∨ line.isInstruction = true) →
        ((ofSource mode source).validate config catalog).entries.filter
            (fun entry => entry.line == line.index) =
          [line.problem "Line must start with an instruction or label"]) := by
  rw [checkToken_names] at found
  have given : token ∈ line.arguments := List.mem_filter.mpr ⟨behind, by rw [noComment]; rfl⟩
  have alone : ¬ (line.isLabel = true ∨ line.isInstruction = true) →
      ((ofSource mode source).validate config catalog).entries.filter
          (fun entry => entry.line == line.index) =
        [line.problem "Line must start with an instruction or label"] := by
    intro misplaced
    rw [not_or, Bool.not_eq_true, Bool.not_eq_true] at misplaced
    rw [validate_entries_at mode source config catalog line member misplaced.1]
    exact line.check_of_misplaced _ catalog complete (List.ne_nil_of_mem given) misplaced.1
      misplaced.2
  refine ⟨⟨?_, fun starts => checkToken_reported _ config catalog line member complete starts token
    given problem found⟩, alone⟩
  intro reported
  by_contra misplaced
  have placed := line_placed mode source line member
  obtain ⟨message, rfl⟩ := Scope.checkToken_reports _ token problem found
  have here : token.problem message ∈
      ((ofSource mode source).validate config catalog).entries.filter
        (fun entry => entry.line == line.index) := by
    rw [List.mem_filter, beq_iff_eq]
    exact ⟨reported, placed.line_eq token (List.mem_of_mem_tail behind)⟩
  rw [alone misplaced, List.mem_singleton] at here
  -- The error about the start covers the first column, where the first token stands.
  have first : token.startColumn = 0 := congrArg Diagnostic.startColumn here
  have ordered := placed.ordered
  cases shape : line.tokens with
  | nil =>
      rw [shape] at behind
      cases behind
  | cons leading later =>
      rw [shape] at ordered behind
      have after := (List.pairwise_cons.mp ordered).1 token behind
      omega

theorem argument_problems_reported_iff_unresolved :
    ∃ line ∈ (ofSource .skip "mov 70000 $nope").lines, line.isInstruction = true ∧
      ∀ problem ∈ [(⟨.integer "70000".toList, 0, 4⟩ : Token).problem
            "Value is higher than maximum (65535)",
          (⟨.register "nope".toList, 0, 10⟩ : Token).problem "Unknown register nope"],
        problem ∈ ((ofSource .skip "mov 70000 $nope").validate {} .standard).entries := by
  let line := Line.ofText .skip 0 0 "mov 70000 $nope".toList
  have member : line ∈ (ofSource .skip "mov 70000 $nope").lines := by decide +kernel
  have complete : line.unparsed = none := by decide +kernel
  have starts : line.isInstruction = true := by decide +kernel
  have behind : line.tokens.tail =
      [⟨.integer "70000".toList, 0, 4⟩, ⟨.register "nope".toList, 0, 10⟩] := by decide +kernel
  refine ⟨line, member, starts, ?_⟩
  intro problem listed
  have found : ∃ token ∈ line.tokens.tail, token.isComment = false ∧
      problem ∈ ((ofSource .skip "mov 70000 $nope").names {}).checkToken token := by
    rw [behind]
    revert problem
    decide +kernel
  obtain ⟨token, argument, noComment, found⟩ := found
  exact (argument_problems_reported_iff .skip "mov 70000 $nope" {} .standard line member complete
    token argument noComment problem found).1.mpr (Or.inr starts)

/-- With a register in front, the unknown register behind it is not reported. -/
theorem argument_problem_hidden_by_start :
    ¬ ∀ (mode : CommentMode) (source : String) (config : Config) (catalog : Catalog),
      ∀ line ∈ (ofSource mode source).lines, line.unparsed = none →
        ∀ token ∈ line.tokens.tail, token.isComment = false →
          ∀ problem ∈ ((ofSource mode source).names config).checkToken token,
            problem ∈ ((ofSource mode source).validate config catalog).entries := by
  intro reported
  let line := Line.ofText .skip 0 0 "$acc $nope".toList
  have unknown := reported .skip "$acc $nope" {} .standard line (by decide +kernel)
    (by decide +kernel) ⟨.register "nope".toList, 0, 5⟩ (by decide +kernel) rfl
    ((⟨.register "nope".toList, 0, 5⟩ : Token).problem "Unknown register nope")
    (by decide +kernel)
  revert unknown
  decide +kernel

end Program

end PinMachine
