import PinMachine.Proofs.Catalog.Arguments
import PinMachine.Proofs.Program.Scan
import PinMachine.Proofs.Token.Value

/-!
Well-formed programs. What a program has to be like to make sense is said here without
the checks: lines that are read to their end and start properly, labels that are declared
once, instructions with an overload for their arguments, and arguments that name what
there is. The checks accept exactly these programs.
-/

namespace PinMachine

def Config.HasRegister (config : Config) (name : String) : Prop :=
  name ∈ ["acc", "t", "ra", "rv"] ∨ name ∈ config.namedRegisters ∨
    (∃ number < config.basicRegisters, "r" ++ toString number = name) ∨
    ∃ number < config.stackRegisters, "s" ++ toString number = name

/-- An argument names a register, a label, pins or a word that there is. -/
def Lexeme.Valid (config : Config) (program : Program) : Lexeme → Prop
  | .register name => config.HasRegister (String.ofList name)
  | .labelArgument name => ∃ line ∈ program.lines, line.labelName? = some (String.ofList name)
  | .pin index => IsIndex index ∧ numeralValue 10 index < config.pins
  | .pinRange first last =>
      IsIndex first ∧ IsIndex last ∧ numeralValue 10 first ≤ numeralValue 10 last ∧
        numeralValue 10 last < config.pins
  | .pinRangeLength first count =>
      numeralValue 10 first + numeralValue 10 count < pinIndexBound ∧
        ∃ last, numeralValue 10 first + numeralValue 10 count = last + 1 ∧
          numeralValue 10 first ≤ last ∧ last < config.pins
  | .binary digits => numeralValue 2 (digits.filter (· != '_')) ≤ 65535
  | .hex digits => numeralValue 16 digits ≤ 65535
  | .integer digits => numeralValue 10 digits ≤ 65535
  -- These are never arguments.
  | .label _ | .instruction _ | .whitespace _ | .comment _ => False

/-- The overload has one parameter for each argument, which contains its category. -/
def Definition.Takes (definition : Definition) (arguments : List TokenKind) : Prop :=
  List.Forall₂ (fun parameter kind => ∃ category, TokenKind.category? kind = some category ∧
    ParameterKinds.contains parameter category = true) definition.parameters arguments

structure Line.WellFormed (line : Line) (config : Config) (catalog : Catalog)
    (program : Program) : Prop where
  complete : line.unparsed = none
  leads : line.isEmpty = true ∨ line.isComment = true ∨ line.isLabel = true ∨
    line.isInstruction = true
  overloaded : ∀ name, line.instructionName? = some name →
    ∃ definition ∈ catalog.definitions, definition.name = name ∧
      definition.Takes (line.arguments.map Token.kind)
  valid : line.isLabel = true ∨ line.isInstruction = true →
    ∀ token ∈ line.arguments, token.lexeme.Valid config program

structure Program.WellFormed (program : Program) (config : Config) (catalog : Catalog) :
    Prop where
  distinct : (program.lines.filterMap Line.labelName?).Nodup
  lines : ∀ line ∈ program.lines, line.WellFormed config catalog program

theorem ParameterKinds.intersects_category (parameter : ParameterKinds) (kind : TokenKind)
    (category : ParameterKinds) (categorized : kind.category? = some category) :
    parameter.intersects category = parameter.contains category := by
  -- A category is a set with one element.
  obtain ⟨register, label, constant, pinSingle, pinMultiple⟩ := parameter
  cases kind <;> cases categorized <;>
    simp [intersects, contains, union, onlyRegister, onlyLabel, onlyConstant, onlyPinSingle,
      onlyPinMultiple, beq_eq_decide, eq_comm]

theorem mapM_category_iff (kinds : List TokenKind) (categories : List ParameterKinds) :
    kinds.mapM TokenKind.category = .ok categories ↔
      List.Forall₂ (fun kind category => TokenKind.category? kind = some category)
        kinds categories := by
  induction kinds generalizing categories with
  | nil =>
      rw [List.forall₂_nil_left_iff, List.mapM_nil]
      exact ⟨fun read => (Except.ok.inj read).symm, fun none => by rw [none]; rfl⟩
  | cons kind rest ih =>
      rw [List.mapM_cons, List.forall₂_cons_left_iff]
      cases categorized : kind.category? with
      | none =>
          simp only [TokenKind.category, categorized]
          constructor
          · intro read
            cases read
          · rintro ⟨category, others, same, _later, _split⟩
            cases same
      | some category =>
          simp only [TokenKind.category, categorized]
          cases later : rest.mapM TokenKind.category with
          | error error =>
              constructor
              · intro read
                cases read
              · rintro ⟨_category, others, _same, kept, _split⟩
                rw [(ih others).mpr kept] at later
                cases later
          | ok others =>
              constructor
              · intro read
                cases read
                exact ⟨category, others, rfl, (ih others).mp later, rfl⟩
              · rintro ⟨_category, _others, same, kept, rfl⟩
                rw [(ih _).mpr kept] at later
                cases same
                cases later
                rfl

private theorem accepts_iff (definition : Definition) (categories : List ParameterKinds) :
    definition.accepts categories = true ↔
      List.Forall₂ (fun parameter category => ParameterKinds.intersects parameter category = true)
        definition.parameters categories := by
  unfold Definition.accepts
  rw [List.forall₂_iff_zip, Bool.and_eq_true, beq_iff_eq, List.all_eq_true]
  constructor
  · rintro ⟨count, taken⟩
    exact ⟨count, fun member => taken _ member⟩
  · rintro ⟨count, taken⟩
    exact ⟨count, fun pair member => taken member⟩

theorem Definition.takes_iff (definition : Definition) (kinds : List TokenKind) :
    definition.Takes kinds ↔
      ∃ categories, kinds.mapM TokenKind.category = .ok categories ∧
        definition.accepts categories = true := by
  simp only [mapM_category_iff, accepts_iff, Definition.Takes]
  generalize definition.parameters = parameters
  constructor
  · intro takes
    induction takes with
    | nil => exact ⟨[], .nil, .nil⟩
    | cons first later ih =>
        obtain ⟨category, categorized, contained⟩ := first
        obtain ⟨categories, read, taken⟩ := ih
        rw [← ParameterKinds.intersects_category _ _ _ categorized] at contained
        exact ⟨category :: categories, .cons categorized read, .cons contained taken⟩
  · rintro ⟨categories, read, taken⟩
    induction read generalizing parameters with
    | nil =>
        cases taken
        exact .nil
    | cons categorized later ih =>
        obtain ⟨parameter, others, met, rest, rfl⟩ := List.forall₂_cons_right_iff.mp taken
        rw [ParameterKinds.intersects_category _ _ _ categorized] at met
        exact .cons ⟨_, categorized, met⟩ (ih _ rest)

theorem Catalog.exists_resolve_iff (catalog : Catalog) (name : String)
    (kinds : List TokenKind) :
    (∃ definition, catalog.resolve name kinds = .ok definition) ↔
      ∃ definition ∈ catalog.definitions, definition.name = name ∧ definition.Takes kinds := by
  constructor
  · rintro ⟨definition, resolved⟩
    obtain ⟨declared, named, accepted⟩ := catalog.resolve_eq_ok name kinds definition resolved
    exact ⟨definition, declared, named, (definition.takes_iff kinds).mpr accepted⟩
  · rintro ⟨definition, declared, named, takes⟩
    obtain ⟨categories, read, accepts⟩ := (definition.takes_iff kinds).mp takes
    have overload : definition ∈ catalog.overloads name :=
      List.mem_filter.mpr ⟨declared, beq_iff_eq.mpr named⟩
    obtain ⟨first, found⟩ : ∃ first, (catalog.overloads name).find?
        (fun definition => definition.accepts categories) = some first := by
      rw [← Option.isSome_iff_exists, List.find?_isSome]
      exact ⟨definition, overload, accepts⟩
    refine ⟨first, ?_⟩
    unfold resolve
    rw [read]
    change select name (catalog.overloads name) categories = .ok first
    unfold select
    cases overloads : catalog.overloads name with
    | nil =>
        rw [overloads] at overload
        cases overload
    | cons one others =>
        rw [overloads] at found
        simp only [found]

theorem Config.mem_registerNames_iff (config : Config) (name : String) :
    name ∈ config.registerNames ↔ config.HasRegister name := by
  simp only [registerNames, generalRegisterNames, builtinRegisters, basicRegisterNames,
    stackRegisterNames, HasRegister, List.mem_append, List.mem_map, List.mem_range, or_assoc]

namespace Scope

variable {scope : Scope}

theorem checkPin_eq_nil_iff (token : Token) :
    scope.checkPin token = [] ↔
      ∃ index, token.lexeme.readPinIndex = .ok index ∧ index < scope.pinCount := by
  unfold checkPin
  cases token.lexeme.readPinIndex with
  | error error => simp
  | ok index => simp

theorem checkPinRange_eq_nil_iff (token : Token) :
    scope.checkPinRange token = [] ↔
      ∃ range, token.lexeme.readPinRange = .ok range ∧ range.first ≤ range.last ∧
        range.last < scope.pinCount := by
  unfold checkPinRange
  cases token.lexeme.readPinRange with
  | error error => simp
  | ok range => simp

theorem checkConstant_eq_nil_iff (token : Token) (base : Nat) (digits : List Char)
    (numeral : token.lexeme.numeral? = some (base, digits)) (positive : 0 < base) :
    checkConstant token = [] ↔ numeralValue base digits ≤ 65535 := by
  unfold checkConstant Lexeme.readConstant
  rw [numeral]
  simp only [numeralBelow?_eq base (maxWord + 1) positive]
  by_cases fits : numeralValue base digits < maxWord + 1
  · rw [if_pos fits]
    exact iff_of_true rfl (Nat.le_of_lt_succ fits)
  · rw [if_neg fits]
    exact iff_of_false (List.cons_ne_nil _ _) fun small => fits (Nat.lt_succ_of_le small)

theorem checkToken_eq_nil_iff {config : Config} {program : Program} {token : Token}
    (registers : scope.registers = config.registerNames)
    (pinCount : scope.pinCount = config.pins)
    (labels : ∀ name, name ∈ scope.labels ↔ ∃ line ∈ program.lines, line.labelName? = some name)
    (argument : token.kind.category?.isSome = true) :
    scope.checkToken token = [] ↔ token.lexeme.Valid config program := by
  obtain ⟨lexeme, place, column⟩ := token
  cases lexeme with
  | register name =>
      have named := config.mem_registerNames_iff (String.ofList name)
      simp only [checkToken, Token.kind, Lexeme.kind, checkRegister, Lexeme.readName, registers,
        Lexeme.Valid, ← named, ite_eq_left_iff, reduceCtorEq, imp_false, not_not]
  | labelArgument name =>
      simp only [checkToken, Token.kind, Lexeme.kind, checkLabel, Lexeme.readName,
        Lexeme.Valid, ← labels, ite_eq_left_iff, reduceCtorEq, imp_false, not_not]
  | pin index =>
      apply (scope.checkPin_eq_nil_iff _).trans
      simp only [Lexeme.readPinIndex_pin_iff, Lexeme.Valid, pinCount]
      constructor
      · rintro ⟨number, ⟨isIndex, rfl⟩, inside⟩
        exact ⟨isIndex, inside⟩
      · rintro ⟨isIndex, inside⟩
        exact ⟨_, ⟨isIndex, rfl⟩, inside⟩
  | pinRange first last =>
      apply (scope.checkPinRange_eq_nil_iff _).trans
      simp only [Lexeme.readPinRange_pinRange_iff, Lexeme.Valid, pinCount]
      constructor
      · rintro ⟨range, ⟨firstIndex, lastIndex, rfl⟩, forward, inside⟩
        exact ⟨firstIndex, lastIndex, forward, inside⟩
      · rintro ⟨firstIndex, lastIndex, forward, inside⟩
        exact ⟨_, ⟨firstIndex, lastIndex, rfl⟩, forward, inside⟩
  | pinRangeLength first count =>
      apply (scope.checkPinRange_eq_nil_iff _).trans
      simp only [Lexeme.readPinRange_pinRangeLength_iff, Lexeme.Valid, pinCount]
      constructor
      · rintro ⟨⟨start, last⟩, ⟨small, rfl, ends⟩, forward, inside⟩
        exact ⟨small, last, ends, forward, inside⟩
      · rintro ⟨small, last, ends, forward, inside⟩
        exact ⟨⟨_, last⟩, ⟨small, rfl, ends⟩, forward, inside⟩
  | binary digits => exact checkConstant_eq_nil_iff _ 2 _ rfl (by decide)
  | hex digits => exact checkConstant_eq_nil_iff _ 16 _ rfl (by decide)
  | integer digits => exact checkConstant_eq_nil_iff _ 10 _ rfl (by decide)
  | label name => cases argument
  | instruction name => cases argument
  | whitespace blanks => cases argument
  | comment text => cases argument

end Scope

/-- The tokens write these names, one each. -/
abbrev WriteNames (tokens : List Token) (names : List String) : Prop :=
  List.Forall₂ (fun token name => Lexeme.readName (Token.lexeme token) = .ok name) tokens names

namespace Scope

variable {tokens : List Token} {names : List String}

theorem mem_labels_declareLabelsFrom (writes : WriteNames tokens names) (found : List Diagnostic)
    (scope : Scope) (label : String) :
    label ∈ (scope.declareLabelsFrom found tokens).1.labels ↔
      label ∈ scope.labels ∨ label ∈ names := by
  induction writes generalizing found scope with
  | nil => simp [declareLabelsFrom]
  | @cons token name tokens names first later ih =>
      simp only [declareLabelsFrom, declareLabel, first, ih, List.mem_cons]
      by_cases known : name ∈ scope.labels
      · rw [if_pos known]
        constructor
        · rintro (old | new)
          · exact Or.inl old
          · exact Or.inr (Or.inr new)
        · rintro (old | rfl | new)
          · exact Or.inl old
          · exact Or.inl known
          · exact Or.inr new
      · simp only [if_neg known, List.mem_append, List.mem_singleton, or_assoc]

/-- Declaring labels reports no error exactly if their names differ from each other and
from those already in scope. -/
theorem declareLabelsFrom_clean_iff (writes : WriteNames tokens names) (found : List Diagnostic)
    (scope : Scope) :
    (∀ entry ∈ (scope.declareLabelsFrom found tokens).2, entry.severity ≠ .error) ↔
      (∀ entry ∈ found, entry.severity ≠ .error) ∧ names.Nodup ∧
        ∀ name ∈ names, name ∉ scope.labels := by
  induction writes generalizing found scope with
  | nil => simp [declareLabelsFrom]
  | @cons token name tokens names first later ih =>
      simp only [declareLabelsFrom, declareLabel, first, ih]
      by_cases known : name ∈ scope.labels
      · rw [if_pos known]
        constructor
        · rintro ⟨clean, _nodup, _apart⟩
          exact False.elim (clean _ (List.mem_append_left _ List.mem_cons_self) rfl)
        · rintro ⟨_clean, _nodup, apart⟩
          exact False.elim (apart name List.mem_cons_self known)
      · simp only [if_neg known, List.reverse_nil, List.nil_append, List.nodup_cons,
          List.forall_mem_cons, List.mem_append, List.mem_singleton, not_or]
        constructor
        · rintro ⟨clean, nodup, apart⟩
          refine ⟨clean, ⟨fun again => (apart name again).2 rfl, nodup⟩, known, ?_⟩
          intro other member
          exact (apart other member).1
        · rintro ⟨clean, ⟨once, nodup⟩, _known, apart⟩
          refine ⟨clean, nodup, fun other member => ⟨apart other member, ?_⟩⟩
          rintro rfl
          exact once member

end Scope

private theorem labelTokens_names (lines : List Line) :
    WriteNames ((lines.filter Line.isLabel).filterMap fun line => line.tokens.head?)
      (lines.filterMap Line.labelName?) := by
  induction lines with
  | nil => exact .nil
  | cons line rest ih =>
      cases named : line.labelName? with
      | none =>
          have notLabel : line.isLabel = false := by
            unfold Line.isLabel
            rw [named]
            rfl
          rw [List.filterMap_cons_none named, List.filter_cons_of_neg (by simp [notLabel])]
          exact ih
      | some name =>
          have isLabel : line.isLabel = true := by
            unfold Line.isLabel
            rw [named]
            rfl
          obtain ⟨token, first, read⟩ : ∃ token, line.tokens.head? = some token ∧
              token.lexeme.readName = .ok name := by
            unfold Line.labelName? at named
            split at named
            · rename_i shape
              rw [shape]
              cases named
              exact ⟨_, rfl, rfl⟩
            · cases named
          rw [List.filterMap_cons_some named, List.filter_cons_of_pos isLabel,
            List.filterMap_cons, first]
          exact .cons read ih

namespace Program

theorem mem_scope_labels_iff (program : Program) (config : Config) (name : String) :
    name ∈ (program.scope config).labels ↔
      ∃ line ∈ program.lines, line.labelName? = some name := by
  have declared := Scope.mem_labels_declareLabelsFrom (labelTokens_names program.lines) []
    (.ofConfig config) name
  rw [List.mem_filterMap] at declared
  refine declared.trans ?_
  simp only [Scope.ofConfig, List.not_mem_nil, false_or]

theorem declareLabels_clean_iff (program : Program) (config : Config) :
    (∀ entry ∈ ((Scope.ofConfig config).declareLabels program.labelTokens).2,
        entry.severity ≠ .error) ↔
      (program.lines.filterMap Line.labelName?).Nodup := by
  refine (Scope.declareLabelsFrom_clean_iff (labelTokens_names program.lines) []
    (.ofConfig config)).trans ?_
  simp [Scope.ofConfig]

end Program

/-! ### Lines -/

namespace Line

variable {line : Line}

private theorem checkTrailing_clean (line : Line) :
    ∀ entry ∈ line.checkTrailing, entry.severity ≠ .error := by
  intro entry reported
  unfold checkTrailing at reported
  split at reported
  · rw [List.mem_singleton.mp reported]
    intro isError
    cases isError
  · cases reported

private theorem arguments_clean_iff (config : Config) (program : Program)
    (arguments : ∀ token ∈ line.arguments, token.kind.category?.isSome = true) :
    (∀ entry ∈ line.arguments.flatMap (program.scope config).checkToken,
        entry.severity ≠ .error) ↔
      ∀ token ∈ line.arguments, token.lexeme.Valid config program := by
  have valid : ∀ token ∈ line.arguments,
      ((program.scope config).checkToken token = [] ↔ token.lexeme.Valid config program) :=
    fun token member => Scope.checkToken_eq_nil_iff (program.scope_registers config)
      (program.scope_pinCount config) (program.mem_scope_labels_iff config)
      (arguments token member)
  constructor
  · intro clean token member
    apply (valid token member).mp
    apply Scope.checkToken_eq_nil_of_clean
    intro entry reported
    exact clean entry (List.mem_flatMap.mpr ⟨token, member, reported⟩)
  · intro each entry reported
    obtain ⟨token, member, found⟩ := List.mem_flatMap.mp reported
    rw [(valid token member).mpr (each token member)] at found
    cases found

private theorem checkSignature_clean_iff (catalog : Catalog) :
    (∀ entry ∈ line.checkSignature catalog, entry.severity ≠ .error) ↔
      ∀ name, line.instructionName? = some name →
        ∃ definition ∈ catalog.definitions, definition.name = name ∧
          definition.Takes (line.arguments.map Token.kind) := by
  unfold checkSignature
  cases line.instructionName? with
  | none => simp
  | some name =>
      simp only [Option.some.injEq, forall_eq', ← Catalog.exists_resolve_iff]
      cases catalog.resolve name (line.arguments.map Token.kind) with
      | ok definition => simp
      | error error => simp [Line.problem]

theorem arguments_of_blank (blank : (line.isEmpty || line.isComment) = true) :
    line.arguments = [] := by
  unfold isEmpty isComment at blank
  unfold arguments
  cases shape : line.tokens with
  | nil => rfl
  | cons first later =>
      rw [shape] at blank
      cases later with
      | nil => rfl
      | cons second others => cases blank

private theorem instruction_clean_iff (config : Config) (catalog : Catalog) (program : Program)
    (arguments : ∀ token ∈ line.arguments, token.kind.category?.isSome = true)
    (complete : line.unparsed = none) (isInstruction : line.isInstruction = true) :
    (∀ entry ∈ line.check (program.scope config) catalog, entry.severity ≠ .error) ↔
      line.WellFormed config catalog program := by
  obtain ⟨name, named⟩ := Option.isSome_iff_exists.mp isInstruction
  rw [line.check_of_instructionName? _ catalog name named complete, List.forall_mem_append,
    checkSignature_clean_iff, arguments_clean_iff config program arguments]
  constructor
  · rintro ⟨taken, each⟩
    exact ⟨complete, Or.inr (Or.inr (Or.inr isInstruction)), taken, fun _ => each⟩
  · intro wellFormed
    exact ⟨wellFormed.overloaded, wellFormed.valid (Or.inr isInstruction)⟩

private theorem noInstruction_clean_iff (config : Config) (catalog : Catalog) (program : Program)
    (arguments : ∀ token ∈ line.arguments, token.kind.category?.isSome = true)
    (complete : line.unparsed = none) (noInstruction : line.isInstruction = false) :
    (∀ entry ∈ line.check (program.scope config) catalog, entry.severity ≠ .error) ↔
      line.WellFormed config catalog program := by
  have overloaded : ∀ name, line.instructionName? = some name →
      ∃ definition ∈ catalog.definitions, definition.name = name ∧
        definition.Takes (line.arguments.map Token.kind) := by
    intro name named
    unfold isInstruction at noInstruction
    rw [named] at noInstruction
    cases noInstruction
  simp only [check, complete, noInstruction]
  by_cases blank : (line.isEmpty || line.isComment) = true
  · rw [if_pos blank]
    constructor
    · intro _clean
      refine ⟨complete, ?_, overloaded, fun _ token member => ?_⟩
      · rcases Bool.or_eq_true_iff.mp blank with empty | comment
        · exact Or.inl empty
        · exact Or.inr (Or.inl comment)
      · rw [arguments_of_blank blank] at member
        cases member
    · intro _wellFormed entry reported
      cases reported
  · rw [if_neg blank]
    cases isLabel : line.isLabel with
    | true =>
        rw [if_pos rfl, List.forall_mem_append, arguments_clean_iff config program arguments]
        constructor
        · rintro ⟨_warned, each⟩
          exact ⟨complete, Or.inr (Or.inr (Or.inl isLabel)), overloaded, fun _ => each⟩
        · intro wellFormed
          exact ⟨line.checkTrailing_clean, wellFormed.valid (Or.inl isLabel)⟩
    | false =>
        constructor
        · intro clean
          exact False.elim (clean _ List.mem_cons_self rfl)
        · intro wellFormed
          rcases wellFormed.leads with empty | comment | label | instruction
          · exact False.elim (blank (Bool.or_eq_true_iff.mpr (Or.inl empty)))
          · exact False.elim (blank (Bool.or_eq_true_iff.mpr (Or.inr comment)))
          · rw [isLabel] at label
            cases label
          · rw [noInstruction] at instruction
            cases instruction

theorem check_clean_iff (line : Line) (config : Config) (catalog : Catalog) (program : Program)
    (arguments : ∀ token ∈ line.arguments, token.kind.category?.isSome = true) :
    (∀ entry ∈ line.check (program.scope config) catalog, entry.severity ≠ .error) ↔
      line.WellFormed config catalog program := by
  cases complete : line.unparsed with
  | some column =>
      constructor
      · intro clean
        simp only [check, complete] at clean
        exact False.elim (clean _ List.mem_cons_self rfl)
      · intro wellFormed
        rw [wellFormed.complete] at complete
        cases complete
  | none =>
      cases isInstruction : line.isInstruction with
      | true => exact instruction_clean_iff config catalog program arguments complete isInstruction
      | false => exact noInstruction_clean_iff config catalog program arguments complete isInstruction

end Line

theorem TokenKind.category?_isSome (kind : TokenKind) (follows : kind.leadsLine = false)
    (notBlank : kind ≠ .whitespace) (notComment : kind ≠ .comment) :
    kind.category?.isSome = true := by
  cases kind with
  | label => cases follows
  | instruction => cases follows
  | whitespace => exact False.elim (notBlank rfl)
  | comment => exact False.elim (notComment rfl)
  | _ => rfl

namespace Program

theorem arguments_kinds (mode : CommentMode) (source : String) (line : Line)
    (member : line ∈ (Program.ofSource mode source).lines) :
    ∀ token ∈ line.arguments, token.kind.category?.isSome = true := by
  obtain ⟨index, offset, text, rfl⟩ := Program.exists_ofText mode source line member
  intro token given
  obtain ⟨later, kept⟩ := List.mem_filter.mp given
  have scans := Line.scans_ofText mode index offset text
  apply token.kind.category?_isSome (scans.leadsLine_eq_false.2 token later)
  · exact scans.kind_ne_whitespace token (List.mem_of_mem_tail later)
  · simpa [Token.isComment] using kept

/-- The checks accept exactly the well-formed programs. -/
theorem accepts_exactly_wellFormed (mode : CommentMode) (source : String) (config : Config)
    (catalog : Catalog) :
    ((Program.ofSource mode source).validate config catalog).isOk = true ↔
      (Program.ofSource mode source).WellFormed config catalog := by
  have kinds := arguments_kinds mode source
  generalize Program.ofSource mode source = program at kinds
  have lines : (∀ entry ∈ program.lines.flatMap fun line =>
        line.check (program.scope config) catalog, entry.severity ≠ .error) ↔
      ∀ line ∈ program.lines, line.WellFormed config catalog program := by
    constructor
    · intro clean line member
      apply (line.check_clean_iff config catalog program (kinds line member)).mp
      intro entry reported
      exact clean entry (List.mem_flatMap.mpr ⟨line, member, reported⟩)
    · intro each entry reported
      obtain ⟨line, member, found⟩ := List.mem_flatMap.mp reported
      exact (line.check_clean_iff config catalog program (kinds line member)).mpr
        (each line member) entry found
  calc (program.validate config catalog).isOk = true
      ↔ ∀ entry ∈ ((Scope.ofConfig config).declareLabels program.labelTokens).2 ++
          program.lines.flatMap fun line => line.check (program.scope config) catalog,
          entry.severity ≠ .error := Diagnostics.isOk_ofList_iff _
    _ ↔ (program.lines.filterMap Line.labelName?).Nodup ∧
          ∀ line ∈ program.lines, line.WellFormed config catalog program := by
        rw [List.forall_mem_append, program.declareLabels_clean_iff config, lines]
    _ ↔ program.WellFormed config catalog :=
        ⟨fun ⟨distinct, each⟩ => ⟨distinct, each⟩,
          fun wellFormed => ⟨wellFormed.distinct, wellFormed.lines⟩⟩

end Program

end PinMachine
