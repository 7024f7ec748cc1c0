import PinMachine.Interpreter

/-!
What acceptance says about a program. A collection of diagnostics is in order
exactly if none of its entries is an error; so an accepted program has an overload
for every instruction line, and every argument of such a line passes the check of
its kind.
-/

namespace PinMachine

private theorem raise_eq_error_iff (severity : Severity) (highest : Option Severity) :
    severity.raise highest = .error ↔ severity = .error ∨ highest = some .error := by
  cases highest with
  | none => simp [Severity.raise]
  | some other => cases severity <;> cases other <;> decide

private theorem highestSeverity_eq_error_iff (entries : List Diagnostic) :
    highestSeverity entries = some .error ↔ ∃ entry ∈ entries, entry.severity = .error := by
  induction entries with
  | nil => simp [highestSeverity]
  | cons entry rest ih =>
      change some (entry.severity.raise (highestSeverity rest)) = some .error ↔ _
      rw [Option.some.injEq, raise_eq_error_iff, ih]
      simp only [List.mem_cons, exists_eq_or_imp]

theorem Diagnostics.isOk_ofList_iff (entries : List Diagnostic) :
    (Diagnostics.ofList entries).isOk = true ↔
      ∀ entry ∈ entries, entry.severity ≠ .error := by
  have found := highestSeverity_eq_error_iff entries.reverse
  unfold Diagnostics.isOk Diagnostics.ofList
  rw [bne_iff_ne, Ne, found]
  constructor
  · intro clean entry member isError
    exact clean ⟨entry, List.mem_reverse.mpr member, isError⟩
  · rintro clean ⟨entry, member, isError⟩
    exact clean entry (List.mem_reverse.mp member) isError

theorem Diagnostics.isOk_push_iff (diagnostics : Diagnostics) (entry : Diagnostic) :
    (diagnostics.push entry).isOk = true ↔
      diagnostics.isOk = true ∧ entry.severity ≠ .error := by
  unfold Diagnostics.isOk Diagnostics.push
  simp only [bne_iff_ne, ne_eq, Option.some.injEq, raise_eq_error_iff, not_or]
  exact And.comm

/-- What the checks say about a token. -/
inductive TokenMessage : String → Prop
  | unreadable (error : ValueError) : TokenMessage error.message
  | unknownRegister (name : String) : TokenMessage ("Unknown register " ++ name)
  | unknownLabel (name : String) :
      TokenMessage ("label \"" ++ name ++ "\" could not be found")
  | repeatedLabel (name : String) : TokenMessage ("label \"" ++ name ++ "\" already exists")
  | unknownPin (count : Nat) :
      TokenMessage ("Pin exceeds allowed range (max " ++ toString count ++ ")")
  | backward : TokenMessage "Pin range end index cannot come before start index"
  | unknownPins (count : Nat) :
      TokenMessage ("Pin range ends outside of allowed range (max " ++ toString count ++ ")")
  | tooLarge (bound : String) : TokenMessage ("Value is higher than maximum (" ++ bound ++ ")")

/-- All of these entries are errors at the place of the token. -/
def Token.Reports (token : Token) (entries : List Diagnostic) : Prop :=
  ∀ entry ∈ entries, ∃ message, entry = token.problem message

/-- All of these entries are errors at the place of the token, with messages of the checks. -/
def Token.Explains (token : Token) (entries : List Diagnostic) : Prop :=
  ∀ entry ∈ entries, ∃ message, TokenMessage message ∧ entry = token.problem message

namespace Token

variable {token : Token} {first second : List Diagnostic} {message : String}

theorem explains_nil : token.Explains [] := by
  intro entry member
  cases member

theorem explains_problem (said : TokenMessage message) :
    token.Explains [token.problem message] := by
  intro entry member
  exact ⟨message, said, List.mem_singleton.mp member⟩

theorem Explains.append (one : token.Explains first) (other : token.Explains second) :
    token.Explains (first ++ second) :=
  List.forall_mem_append.mpr ⟨one, other⟩

theorem explains_ite (condition : Prop) [Decidable condition] (one : token.Explains first)
    (other : token.Explains second) :
    token.Explains (if condition then first else second) := by
  split
  · exact one
  · exact other

theorem Explains.reports (explains : token.Explains first) : token.Reports first := by
  intro entry member
  obtain ⟨message, _said, same⟩ := explains entry member
  exact ⟨message, same⟩

end Token

namespace Scope

private theorem checkRegister_explains (scope : Scope) (token : Token) :
    token.Explains (scope.checkRegister token) := by
  unfold checkRegister
  split
  · exact Token.explains_problem (.unreadable _)
  · exact Token.explains_ite _ Token.explains_nil (Token.explains_problem (.unknownRegister _))

private theorem checkLabel_explains (scope : Scope) (token : Token) :
    token.Explains (scope.checkLabel token) := by
  unfold checkLabel
  split
  · exact Token.explains_problem (.unreadable _)
  · exact Token.explains_ite _ Token.explains_nil (Token.explains_problem (.unknownLabel _))

private theorem checkPin_explains (scope : Scope) (token : Token) :
    token.Explains (scope.checkPin token) := by
  unfold checkPin
  split
  · exact Token.explains_problem (.unreadable _)
  · exact Token.explains_ite _ Token.explains_nil (Token.explains_problem (.unknownPin _))

private theorem checkPinRange_explains (scope : Scope) (token : Token) :
    token.Explains (scope.checkPinRange token) := by
  unfold checkPinRange
  split
  · exact Token.explains_problem (.unreadable _)
  · apply Token.Explains.append
    · exact Token.explains_ite _ (Token.explains_problem .backward) Token.explains_nil
    · exact Token.explains_ite _ Token.explains_nil (Token.explains_problem (.unknownPins _))

private theorem checkConstant_explains (token : Token) :
    token.Explains (checkConstant token) := by
  unfold checkConstant
  split
  · exact Token.explains_nil
  · exact Token.explains_problem (.tooLarge _)
  · exact Token.explains_problem (.unreadable _)

theorem checkToken_explains (scope : Scope) (token : Token) :
    token.Explains (scope.checkToken token) := by
  unfold checkToken
  cases token.kind with
  | register => exact scope.checkRegister_explains token
  | labelArgument => exact scope.checkLabel_explains token
  | pin => exact scope.checkPin_explains token
  | pinRange => exact scope.checkPinRange_explains token
  | pinRangeLength => exact scope.checkPinRange_explains token
  | binary => exact checkConstant_explains token
  | hex => exact checkConstant_explains token
  | integer => exact checkConstant_explains token
  | label => exact Token.explains_nil
  | instruction => exact Token.explains_nil
  | whitespace => exact Token.explains_nil
  | comment => exact Token.explains_nil

theorem checkToken_reports (scope : Scope) (token : Token) :
    token.Reports (scope.checkToken token) :=
  (scope.checkToken_explains token).reports

theorem checkToken_eq_nil_of_clean (scope : Scope) (token : Token)
    (clean : ∀ entry ∈ scope.checkToken token, entry.severity ≠ .error) :
    scope.checkToken token = [] := by
  rw [List.eq_nil_iff_forall_not_mem]
  intro entry member
  obtain ⟨message, rfl⟩ := scope.checkToken_reports token entry member
  exact clean _ member rfl

end Scope

def Program.scope (program : Program) (config : Config) : Scope :=
  ((Scope.ofConfig config).declareLabels program.labelTokens).1

theorem Line.tokens_of_instructionName? (line : Line) (name : String)
    (instruction : line.instructionName? = some name) :
    ∃ word place column rest,
      line.tokens = ⟨.instruction word, place, column⟩ :: rest ∧
        String.ofList word = name := by
  unfold Line.instructionName? at instruction
  split at instruction
  · rename_i word place column rest shape
    exact ⟨word, place, column, rest, shape, Option.some.inj instruction⟩
  · cases instruction

theorem Line.check_of_instructionName? (line : Line) (scope : Scope) (catalog : Catalog)
    (name : String) (instruction : line.instructionName? = some name)
    (complete : line.unparsed = none) :
    line.check scope catalog =
      line.checkSignature catalog ++ line.arguments.flatMap scope.checkToken := by
  obtain ⟨word, place, column, rest, shape, _sameName⟩ :=
    line.tokens_of_instructionName? name instruction
  have notEmpty : line.isEmpty = false := by
    unfold Line.isEmpty
    rw [shape]
    rfl
  have notComment : line.isComment = false := by
    unfold Line.isComment
    rw [shape]
    cases rest <;> rfl
  have notLabel : line.isLabel = false := by
    unfold Line.isLabel Line.labelName?
    rw [shape]
    rfl
  have isInstruction : line.isInstruction = true := by
    unfold Line.isInstruction
    rw [instruction]
    rfl
  simp only [Line.check, complete, notEmpty, notComment, notLabel, isInstruction,
    Bool.or_false, if_true, if_false, Bool.false_eq_true]

/-- An instruction line of an accepted program is complete, has an overload for
its arguments, and each argument passes its check. -/
theorem Program.instruction_accepted (program : Program) (config : Config)
    (catalog : Catalog) (accepted : (program.validate config catalog).isOk = true)
    (line : Line) (member : line ∈ program.lines) (name : String)
    (instruction : line.instructionName? = some name) :
    (∃ definition, catalog.resolve name (line.arguments.map Token.kind) = .ok definition) ∧
      ∀ token ∈ line.arguments, (program.scope config).checkToken token = [] := by
  have clean : ∀ entry ∈ line.check (program.scope config) catalog,
      entry.severity ≠ .error := by
    intro entry reported
    apply (Diagnostics.isOk_ofList_iff _).mp accepted
    apply List.mem_append_right
    exact List.mem_flatMap.mpr ⟨line, member, reported⟩
  cases complete : line.unparsed with
  | some column =>
      have unparsable := clean
      simp only [Line.check, complete, List.mem_singleton] at unparsable
      exact False.elim (unparsable _ rfl rfl)
  | none =>
      rw [line.check_of_instructionName? _ catalog name instruction complete] at clean
      constructor
      · have signature : ∀ entry ∈ line.checkSignature catalog, entry.severity ≠ .error :=
          fun entry reported => clean entry (List.mem_append_left _ reported)
        cases resolved : catalog.resolve name (line.arguments.map Token.kind) with
        | ok definition => exact ⟨definition, rfl⟩
        | error error =>
            simp only [Line.checkSignature, instruction, resolved] at signature
            exact False.elim (signature _ List.mem_cons_self rfl)
      · intro token given
        apply Scope.checkToken_eq_nil_of_clean
        intro entry reported
        apply clean
        apply List.mem_append_right
        exact List.mem_flatMap.mpr ⟨token, given, reported⟩

theorem Interpreter.create_eq_ok (config : Config) (program : Program) (catalog : Catalog)
    (made : Interpreter) (accepted : Interpreter.create config program catalog = .ok made) :
    config.Valid ∧ (program.validate config catalog).isOk = true ∧
      made =
        { config := config
          dispatch := (program.lines.map fun line => line.dispatch? catalog).toArray
          machine := .start config program
          diagnostics := program.validate config catalog
          pendingSteps := 0 } := by
  unfold Interpreter.create at accepted
  by_cases valid : config.Valid
  · rw [if_pos valid] at accepted
    by_cases clean : (program.validate config catalog).isOk = true
    · simp only [clean, if_true] at accepted
      cases accepted
      exact ⟨valid, clean, rfl⟩
    · simp only [clean] at accepted
      cases accepted
  · rw [if_neg valid] at accepted
    cases accepted

theorem Interpreter.create_of_isOk (config : Config) (program : Program) (catalog : Catalog)
    (valid : config.Valid) (clean : (program.validate config catalog).isOk = true) :
    Interpreter.create config program catalog =
      .ok
        { config := config
          dispatch := (program.lines.map fun line => line.dispatch? catalog).toArray
          machine := .start config program
          diagnostics := program.validate config catalog
          pendingSteps := 0 } := by
  simp only [Interpreter.create, if_pos valid, clean, if_true]

/-- An interpreter that passes a test can be made if making and testing it can be
carried out. -/
theorem Interpreter.exists_create_of_any (config : Config) (program : Program)
    (catalog : Catalog) (test : Interpreter → Bool)
    (passes : (Interpreter.create config program catalog).toOption.any test = true) :
    ∃ made, Interpreter.create config program catalog = .ok made ∧ test made = true := by
  cases created : Interpreter.create config program catalog with
  | error rejection =>
      rw [created] at passes
      cases passes
  | ok made =>
      rw [created] at passes
      exact ⟨made, rfl, passes⟩

end PinMachine
