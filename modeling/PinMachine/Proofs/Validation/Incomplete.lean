import PinMachine.Proofs.Validation.Reporting

/-!
Lines that are not read to their end. The scan of a source reports the remainder of such a
line, and the checks of the program report it once more, from the column that the line keeps.
Both come to the same diagnostics in the same order. No other problem has the message for a
remainder, and the check of a line looks for a remainder before anything else, so nothing
that the scan has reported is accepted later.
-/

namespace PinMachine

/-- What the scan of a text reports by itself: from the column where it stops to the last
character, the text belongs to no token. -/
def scanError? (mode : CommentMode) (index : Nat) (text : List Char) : Option Diagnostic :=
  (scanLine mode index text).unparsed.map fun column =>
    { severity := .error
      line := index
      startColumn := column
      endColumn := text.length - 1
      message := unparsableMessage }

theorem readLinesFrom_lexicalErrors (mode : CommentMode) (done : List Line) (index offset : Nat)
    (texts : List (List Char)) :
    (readLinesFrom mode done index offset texts).filterMap Line.lexicalError? =
      done.reverse.filterMap Line.lexicalError? ++
        (texts.zipIdx index).filterMap fun entry => scanError? mode entry.2 entry.1 := by
  induction texts generalizing done index offset with
  | nil => exact (List.append_nil _).symm
  | cons text rest ih =>
      have here : (Line.ofText mode index offset text).lexicalError? =
          scanError? mode index text := rfl
      simp only [readLinesFrom]
      rw [ih, List.reverse_cons, List.filterMap_append, List.append_assoc, List.zipIdx_cons]
      simp only [List.filterMap_cons, List.filterMap_nil, here]
      cases scanError? mode index text <;> rfl

/-- The message differs from the one for a remainder, whatever is written behind it. -/
def OtherMessage (message : String) : Prop :=
  ¬ message.toList <+: unparsableMessage.toList

instance (message : String) : Decidable (OtherMessage message) :=
  inferInstanceAs (Decidable (¬ _))

theorem OtherMessage.append {front : String} (other : OtherMessage front) (rest : String) :
    OtherMessage (front ++ rest) := by
  intro whole
  apply other
  rw [String.toList_append] at whole
  exact (List.prefix_append _ _).trans whole

theorem ValueError.otherMessage (error : ValueError) : OtherMessage error.message := by
  cases error with
  | invalidKind expected actual =>
      have front : OtherMessage "cannot read " := by decide +kernel
      exact (((front.append _).append _).append _).append _
  | overflow text =>
      have front : OtherMessage "value " := by decide +kernel
      exact (front.append _).append _
  | malformed kind text =>
      have front : OtherMessage "malformed " := by decide +kernel
      exact ((front.append _).append _).append _

theorem TokenMessage.otherMessage {message : String} (said : TokenMessage message) :
    OtherMessage message := by
  have label : OtherMessage "label \"" := by decide +kernel
  cases said with
  | unreadable error => exact error.otherMessage
  | unknownRegister name =>
      have front : OtherMessage "Unknown register " := by decide +kernel
      exact front.append _
  | unknownLabel name => exact (label.append _).append _
  | repeatedLabel name => exact (label.append _).append _
  | unknownPin count =>
      have front : OtherMessage "Pin exceeds allowed range (max " := by decide +kernel
      exact (front.append _).append _
  | backward => decide +kernel
  | unknownPins count =>
      have front : OtherMessage "Pin range ends outside of allowed range (max " := by
        decide +kernel
      exact (front.append _).append _
  | tooLarge bound =>
      have front : OtherMessage "Value is higher than maximum (" := by decide +kernel
      exact (front.append _).append _

theorem Catalog.otherMessage_explain (catalog : Catalog) (error : ResolveError) :
    OtherMessage (catalog.explain error) := by
  cases error with
  | unknownName name =>
      have front : OtherMessage "Cannot find instruction with name \"" := by decide +kernel
      exact (front.append _).append _
  | noMatchingOverload name arguments =>
      have front : OtherMessage "Could not find valid override for " := by decide +kernel
      exact ((front.append _).append _).append _
  | invalidArgumentKind kind =>
      have front : OtherMessage "a " := by decide +kernel
      exact (front.append _).append _

/-- No entry is about a remainder. -/
def NoRemainder (entries : List Diagnostic) : Prop :=
  ∀ entry ∈ entries, OtherMessage entry.message

namespace NoRemainder

variable {first second : List Diagnostic} {entry : Diagnostic}

theorem nil : NoRemainder [] := by
  intro entry member
  cases member

theorem single (other : OtherMessage entry.message) : NoRemainder [entry] := by
  intro found member
  rw [List.mem_singleton.mp member]
  exact other

theorem append (one : NoRemainder first) (other : NoRemainder second) :
    NoRemainder (first ++ second) :=
  List.forall_mem_append.mpr ⟨one, other⟩

theorem ite (condition : Prop) [Decidable condition] (one : NoRemainder first)
    (other : NoRemainder second) : NoRemainder (if condition then first else second) := by
  split
  · exact one
  · exact other

theorem checkTokens (scope : Scope) (tokens : List Token) :
    NoRemainder (tokens.flatMap scope.checkToken) := by
  intro entry reported
  obtain ⟨token, _given, found⟩ := List.mem_flatMap.mp reported
  obtain ⟨message, said, rfl⟩ := scope.checkToken_explains token entry found
  exact said.otherMessage

theorem declareLabels (scope : Scope) (tokens : List Token) :
    NoRemainder (scope.declareLabels tokens).2 := by
  intro entry reported
  rcases scope.declareLabelsFrom_reports [] tokens entry reported with
    none | ⟨token, _declares, message, said, rfl⟩
  · cases none
  · exact said.otherMessage

theorem filter (none : NoRemainder first) :
    first.filter (fun entry => entry.message == unparsableMessage) = [] := by
  rw [List.filter_eq_nil_iff]
  intro entry member same
  have equal : entry.message = unparsableMessage := beq_iff_eq.mp same
  exact none entry member (equal ▸ List.prefix_refl _)

end NoRemainder

namespace Line

theorem noRemainder_checkSignature (line : Line) (catalog : Catalog) :
    NoRemainder (line.checkSignature catalog) := by
  unfold checkSignature
  split
  · exact .nil
  · split
    · exact .nil
    · exact .single (catalog.otherMessage_explain _)

theorem noRemainder_checkTrailing (line : Line) : NoRemainder line.checkTrailing := by
  have ignored : OtherMessage "Tokens after a label declaration are ignored" := by
    decide +kernel
  unfold checkTrailing
  split
  · exact .single ignored
  · exact .nil

theorem noRemainder_check (line : Line) (scope : Scope) (catalog : Catalog)
    (complete : line.unparsed = none) : NoRemainder (line.check scope catalog) := by
  have start : OtherMessage "Line must start with an instruction or label" := by decide +kernel
  have arguments := NoRemainder.checkTokens scope line.arguments
  unfold check
  rw [complete]
  apply NoRemainder.ite _ .nil
  apply NoRemainder.ite _ (line.noRemainder_checkTrailing.append arguments)
  exact .ite _ ((line.noRemainder_checkSignature catalog).append arguments) (.single start)

theorem filter_check (line : Line) (scope : Scope) (catalog : Catalog) :
    (line.check scope catalog).filter (fun entry => entry.message == unparsableMessage) =
      line.lexicalError?.toList := by
  cases unparsed : line.unparsed with
  | none =>
      rw [(line.noRemainder_check scope catalog unparsed).filter, lexicalError?, unparsed]
      rfl
  | some column =>
      have checked : line.check scope catalog = line.lexicalError?.toList := by
        rw [check, lexicalError?, unparsed]
        rfl
      rw [checked, lexicalError?, unparsed, List.filter_eq_self]
      intro entry member
      rw [List.mem_singleton.mp member, beq_iff_eq]

end Line

namespace Program

theorem validate_remainders (program : Program) (config : Config) (catalog : Catalog) :
    (program.validate config catalog).entries.filter
        (fun entry => entry.message == unparsableMessage) =
      program.lexicalErrors.entries := by
  have declared := NoRemainder.declareLabels (Scope.ofConfig config) program.labelTokens
  rw [validate_entries, List.filter_append, declared.filter, List.nil_append,
    List.filter_flatMap, entries_lexicalErrors, List.filterMap_eq_flatMap_toList]
  apply List.flatMap_congr
  intro line _member
  exact line.filter_check (program.scope config) catalog

theorem lexicalErrors_lines (program : Program) :
    program.lexicalErrors.entries.map Diagnostic.line =
      (program.lines.filter Line.isIncomplete).map Line.index := by
  rw [entries_lexicalErrors]
  induction program.lines with
  | nil => rfl
  | cons line rest ih =>
      rw [List.filterMap_cons, List.filter_cons, Line.isIncomplete, Line.lexicalError?]
      cases line.unparsed with
      | none => exact ih
      | some column =>
          rw [Option.map_some, Option.isSome_some, if_pos rfl, List.map_cons, List.map_cons, ih]

/-- A program with a remainder is rejected; a bad configuration is the reason if there is
one. -/
theorem create_of_lexicalErrors (program : Program) (config : Config) (catalog : Catalog)
    (reported : program.lexicalErrors.entries ≠ []) :
    Interpreter.create config program catalog =
      .error (if config.Valid then .invalidProgram (program.validate config catalog)
        else .invalidConfig config.problems) := by
  have unclean : ¬ (program.validate config catalog).isOk = true := by
    intro clean
    obtain ⟨entry, member⟩ := List.exists_mem_of_ne_nil _ reported
    have validated := member
    rw [← program.validate_remainders config catalog] at validated
    rw [entries_lexicalErrors] at member
    obtain ⟨line, _inProgram, found⟩ := List.mem_filterMap.mp member
    obtain ⟨column, _unparsed, rfl⟩ := Option.map_eq_some_iff.mp found
    rw [validate_entries] at validated
    exact (Diagnostics.isOk_ofList_iff _).mp clean _ (List.mem_filter.mp validated).1 rfl
  unfold Interpreter.create
  by_cases valid : config.Valid
  · simp only [if_pos valid, if_neg unclean]
  · simp only [if_neg valid]

/-- Reading a source and checking its program find the same remainders. The reports of the
scan are the entries of the checks with the message for a remainder, one for each incomplete
line, and with any of them no configuration and no catalog give an interpreter. -/
theorem lexical_errors_are_validated (mode : CommentMode) (source : String) :
    (ofSource mode source).lexicalErrors.entries =
        (splitLines source.toList).zipIdx.filterMap
          (fun entry => scanError? mode entry.2 entry.1) ∧
      (ofSource mode source).lexicalErrors.entries.map Diagnostic.line =
        ((ofSource mode source).lines.filter Line.isIncomplete).map Line.index ∧
      ∀ (config : Config) (catalog : Catalog),
        ((ofSource mode source).validate config catalog).entries.filter
            (fun entry => entry.message == unparsableMessage) =
          (ofSource mode source).lexicalErrors.entries ∧
        ((ofSource mode source).lexicalErrors.entries ≠ [] →
          Interpreter.create config (ofSource mode source) catalog =
            .error (if config.Valid
              then .invalidProgram ((ofSource mode source).validate config catalog)
              else .invalidConfig config.problems)) := by
  refine ⟨?_, lexicalErrors_lines _, fun config catalog =>
    ⟨validate_remainders _ config catalog, create_of_lexicalErrors _ config catalog⟩⟩
  rw [entries_lexicalErrors]
  exact readLinesFrom_lexicalErrors mode [] 0 0 _

/-- The second line would be an instruction of the catalog, were it not for its end; the
fourth starts with no token at all. Both are rejected beside a line that no overload takes. -/
theorem lexical_errors_are_validated_for_mixed_lines :
    (ofSource .keep "add\nadd 7 é\n; é\n@@").lexicalErrors.entries ≠ [] ∧
      (ofSource .keep "add\nadd 7 é\n; é\n@@").lexicalErrors.entries.map
          (fun entry => (entry.line, entry.startColumn, entry.endColumn)) =
        [(1, 6, 6), (3, 0, 1)] ∧
      ((ofSource .keep "add\nadd 7 é\n; é\n@@").validate {} .standard).entries.length = 3 ∧
      ∃ rejection, Interpreter.create {} (ofSource .keep "add\nadd 7 é\n; é\n@@") .standard =
        .error rejection := by
  have reported : (ofSource .keep "add\nadd 7 é\n; é\n@@").lexicalErrors.entries.map
      (fun entry => (entry.line, entry.startColumn, entry.endColumn)) =
        [(1, 6, 6), (3, 0, 1)] := by decide +kernel
  have nonempty : (ofSource .keep "add\nadd 7 é\n; é\n@@").lexicalErrors.entries ≠ [] := by
    intro none
    rw [none] at reported
    cases reported
  exact ⟨nonempty, reported, by decide +kernel, _,
    ((lexical_errors_are_validated .keep "add\nadd 7 é\n; é\n@@").2.2 {} .standard).2 nonempty⟩

end Program

end PinMachine
