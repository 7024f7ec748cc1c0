import PinMachine.Proofs.Catalog.Arguments
import PinMachine.Proofs.Interpreter.Invariant
import PinMachine.Proofs.Program.Index
import PinMachine.Proofs.Program.Printing

/-!
The registers of a valid configuration are told apart and can be written in a program. The
list of a bank's registers has each of them once, in increasing order of the names. Every
name is letters and digits only, so behind an instruction its text with a `$` before it is
one register token, and no check of a program refuses that token.
-/

namespace PinMachine

variable {config : Config}

namespace RegisterBank

variable {bank : RegisterBank}

/-- The sorted list of a bank has the registers of a configuration, each of them once and
with its value. -/
structure Lists (config : Config) (bank : RegisterBank) : Prop where
  count : bank.sorted.length =
    4 + config.namedRegisters.length + config.basicRegisters + config.stackRegisters
  increasing : (bank.sorted.map Prod.fst).Pairwise (· < ·)
  known : ∀ name, name ∈ bank.sorted.map Prod.fst ↔ name ∈ config.registerNames
  values : ∀ name value, (name, value) ∈ bank.sorted ↔ bank.get? name = some value

private theorem mem_iff_lookup {cells : List (String × Word)}
    (distinct : (cells.map Prod.fst).Nodup) (name : String) (value : Word) :
    (name, value) ∈ cells ↔ cells.lookup name = some value := by
  induction cells with
  | nil => simp
  | cons cell rest ih =>
      obtain ⟨key, word⟩ := cell
      rw [List.map_cons, List.nodup_cons] at distinct
      rw [List.mem_cons, List.lookup_cons, ih distinct.2]
      by_cases same : name = key
      · subst same
        have absent : rest.lookup name ≠ some value := by
          intro found
          exact distinct.1 ((lookup_isSome name rest).mp (found ▸ rfl))
        simp [absent, eq_comm]
      · have apart : (name == key) = false := beq_false_of_ne same
        simp [same, apart]

private theorem pairwise_sorted (bank : RegisterBank) :
    bank.sorted.Pairwise fun one other => one.1 ≤ other.1 := by
  have ordered : bank.sorted.Pairwise fun one other => decide (one.1 ≤ other.1) = true := by
    apply List.pairwise_mergeSort
    · intro one other third before after
      exact decide_eq_true
        (String.le_trans (of_decide_eq_true before) (of_decide_eq_true after))
    · intro one other
      simpa using String.le_total one.1 other.1
  exact ordered.imp of_decide_eq_true

theorem Fits.lists (fits : bank.Fits config) (valid : config.Valid) : bank.Lists config := by
  have same : bank.sorted.Perm bank.cells := List.mergeSort_perm _ _
  have names : (bank.sorted.map Prod.fst).Perm config.registerNames := by
    rw [← fits.names_eq]
    exact same.map Prod.fst
  have distinct := names.nodup_iff.mpr valid.registerNames_nodup
  constructor
  case count =>
    rw [← config.registerNames_length, ← names.length_eq, List.length_map]
  case increasing =>
    -- Different names that are in order are strictly in order.
    have ordered := List.pairwise_map.mpr bank.pairwise_sorted
    refine ordered.imp₂ ?_ distinct
    intro one other before apart
    apply String.not_le.mp
    intro after
    exact apart (String.le_antisymm before after)
  case known => exact fun name => names.mem_iff
  case values =>
    intro name value
    have keys : (bank.cells.map Prod.fst).Nodup := (same.map Prod.fst).nodup_iff.mp distinct
    rw [same.mem_iff, mem_iff_lookup keys]
    unfold cells get?
    rw [List.lookup_append]

end RegisterBank

private theorem isRun_of_isRegisterName {name : List Char} (allowed : isRegisterName name = true) :
    IsRun Char.isAlphanum name := by
  simp only [isRegisterName, Bool.and_eq_true, Bool.not_eq_true', List.isEmpty_eq_false_iff,
    List.all_eq_true] at allowed
  obtain ⟨letters, digits⟩ := allowed
  constructor
  · rintro rfl
    exact letters rfl
  · intro char member
    rw [← List.takeWhile_append_dropWhile (p := Char.isAlpha) (l := name)] at member
    unfold Char.isAlphanum
    rw [Bool.or_eq_true]
    rcases List.mem_append.mp member with early | late
    · exact Or.inl (List.mem_takeWhile_imp early)
    · exact Or.inr (digits char late)

private theorem isRegisterName_numbered (letter : Char) (isLetter : letter.isAlpha = true)
    (number : Nat) : isRegisterName (letter :: (toString number).toList) = true := by
  unfold isRegisterName
  rw [List.takeWhile_cons_of_pos isLetter, List.dropWhile_cons_of_pos isLetter]
  change List.all _ Char.isDigit = true
  rw [List.all_eq_true]
  intro char member
  exact isDigit_of_mem_toString number char (List.dropWhile_subset _ member)

/-- Not only the named registers have names of letters and then digits. -/
theorem Config.Valid.isRegisterName_of_mem (valid : config.Valid) (name : String)
    (known : name ∈ config.registerNames) : isRegisterName name.toList = true := by
  simp only [Config.registerNames, Config.generalRegisterNames, Config.basicRegisterNames,
    Config.stackRegisterNames, List.mem_append, List.mem_map] at known
  rcases known with ((builtin | named) | ⟨number, _below, rfl⟩) | ⟨number, _below, rfl⟩
  · have all : ∀ name ∈ builtinRegisters, isRegisterName name.toList = true := by decide
    exact all name builtin
  · have clean := valid.nameProblems_eq_nil name named
    by_contra refused
    unfold nameProblems at clean
    rw [if_neg refused] at clean
    cases clean
  · rw [String.toList_append]
    exact isRegisterName_numbered 'r' rfl number
  · rw [String.toList_append]
    exact isRegisterName_numbered 's' rfl number

/-- A line with an instruction and a register, as it is to be read. -/
def registerLine (word blanks : List Char) (name : String) : Line where
  text := word ++ (blanks ++ '$' :: name.toList)
  index := 0
  instructionOffset := 0
  tokens := [⟨.instruction word, 0, 0⟩, ⟨.register name.toList, 0, word.length + blanks.length⟩]
  unparsed := none

/-- A program can name the register. Wherever it stands on a line, the name with a `$` before
it is one register lexeme, if no letter or digit follows; the lexeme denotes the name and
passes every check. In particular a line with an instruction and the register, with or
without blanks between them, is read so and is valid. -/
structure Config.Addresses (config : Config) (name : String) : Prop where
  lexes : ∀ (leading : Bool) (rest : List Char), Stops Char.isAlphanum rest →
    nextLexeme? leading ('$' :: name.toList ++ rest) = some (.register name.toList, rest)
  reads : ∀ (mode : CommentMode) (word blanks : List Char), IsRun Char.isAlpha word →
    AreBlanks blanks →
    (Program.ofSource mode (.ofList (registerLine word blanks name).text)).lines =
      [registerLine word blanks name]
  denotes : (Lexeme.register name.toList).readName = .ok name
  passes : ∀ (program : Program) (line column : Nat),
    (program.scope config).checkToken ⟨.register name.toList, line, column⟩ = []
  accepted : ∀ (mode : CommentMode) (word blanks : List Char) (catalog : Catalog)
    (definition : Definition), IsRun Char.isAlpha word → AreBlanks blanks →
    catalog.resolve (String.ofList word) [.register] = .ok definition →
    (Program.ofSource mode (.ofList (registerLine word blanks name).text)).validate config
      catalog = .empty

variable {name : String} {word blanks : List Char}

private theorem registerLine_eq (word blanks : List Char) (name : String) :
    registerLine word blanks name = argumentLine word blanks (.register name.toList) :=
  rfl

private theorem ofSource_registerLine (mode : CommentMode) (isWord : IsRun Char.isAlpha word)
    (areBlanks : AreBlanks blanks) (isName : IsRun Char.isAlphanum name.toList) :
    (Program.ofSource mode (.ofList (registerLine word blanks name).text)).lines =
      [registerLine word blanks name] := by
  have apart : Stops Char.isAlpha (blanks ++ '$' :: name.toList) :=
    stops_behind_word areBlanks (by decide) name.toList
  rw [registerLine_eq]
  exact Program.ofSource_argumentLine mode isWord areBlanks isName nofun nofun rfl apart

private theorem checkToken_register (known : name ∈ config.registerNames) (program : Program)
    (line column : Nat) :
    (program.scope config).checkToken ⟨.register name.toList, line, column⟩ = [] := by
  simp only [Scope.checkToken, Token.kind, Lexeme.kind, Scope.checkRegister, Lexeme.readName,
    String.ofList_toList, program.scope_registers, if_pos known]

private theorem validate_registerLine (known : name ∈ config.registerNames) (program : Program)
    (lines : program.lines = [registerLine word blanks name]) (catalog : Catalog)
    (definition : Definition)
    (resolved : catalog.resolve (String.ofList word) [.register] = .ok definition) :
    program.validate config catalog = .empty := by
  have signature : (registerLine word blanks name).checkSignature catalog = [] := by
    have kinds : (registerLine word blanks name).arguments.map Token.kind = [.register] := rfl
    have named : (registerLine word blanks name).instructionName? = some (String.ofList word) :=
      rfl
    simp only [Line.checkSignature, named, kinds, resolved]
  have arguments : (registerLine word blanks name).arguments.flatMap
      (program.scope config).checkToken = [] := by
    have single : (registerLine word blanks name).arguments =
        [⟨.register name.toList, 0, word.length + blanks.length⟩] := rfl
    rw [single, List.flatMap_singleton, checkToken_register known program]
  have check := (registerLine word blanks name).check_of_instructionName? (program.scope config)
    catalog (String.ofList word) rfl rfl
  rw [signature, arguments] at check
  have unlabelled : program.labelTokens = [] := by
    unfold Program.labelTokens
    rw [lines]
    rfl
  change Diagnostics.ofList (((Scope.ofConfig config).declareLabels program.labelTokens).2 ++
    program.lines.flatMap fun line => line.check (program.scope config) catalog) = .empty
  rw [unlabelled, lines, List.flatMap_singleton, check]
  rfl

theorem Config.Valid.addresses (valid : config.Valid) (name : String)
    (known : name ∈ config.registerNames) : config.Addresses name := by
  have isName := isRun_of_isRegisterName (valid.isRegisterName_of_mem name known)
  constructor
  case lexes =>
    intro leading rest stops
    exact nextLexeme?_register leading isName stops
  case reads =>
    intro mode word blanks isWord areBlanks
    exact ofSource_registerLine mode isWord areBlanks isName
  case denotes => exact congrArg Except.ok String.ofList_toList
  case passes => exact checkToken_register known
  case accepted =>
    intro mode word blanks catalog definition isWord areBlanks resolved
    exact validate_registerLine known _ (ofSource_registerLine mode isWord areBlanks isName)
      catalog definition resolved

/-- A valid configuration has registers with different names. The bank it starts with and the
bank after any commands list all of them in strictly increasing order, and every name can be
written in a program. -/
theorem Config.registers_distinct_and_addressable (config : Config) (valid : config.Valid) :
    config.registerNames.Nodup ∧
      (RegisterBank.ofConfig config).Lists config ∧
      (∀ (mode : CommentMode) (source : String) (catalog : Catalog) (made : Interpreter)
        (commands : List Command),
        Interpreter.create config (.ofSource mode source) catalog = .ok made →
        (made.after commands).machine.registers.Lists config) ∧
      ∀ name ∈ config.registerNames, config.Addresses name := by
  refine ⟨valid.registerNames_nodup, (RegisterBank.ofConfig_fits config).lists valid, ?_,
    valid.addresses⟩
  intro mode source catalog made commands accepted
  have steady := Interpreter.steady_of_session config mode source catalog made accepted commands
  exact steady.shaped.registers.lists valid

/-- Named registers that come as close to the numbered and the built-in ones as they may. -/
def Config.lookalikes : Config where
  namedRegisters := ["r", "R0", "sp0", "t0"]
  basicRegisterCount := 11
  stackRegisterCount := 2

theorem Config.registers_distinct_and_addressable_lookalikes :
    Config.lookalikes.Valid ∧
      (RegisterBank.ofConfig Config.lookalikes).sorted.length = 21 ∧
      ((RegisterBank.ofConfig Config.lookalikes).sorted.map Prod.fst).Pairwise (· < ·) ∧
      Config.lookalikes.Addresses "r10" ∧ Config.lookalikes.Addresses "R0" := by
  have valid : Config.lookalikes.Valid := by decide +kernel
  have members : "r10" ∈ Config.lookalikes.registerNames ∧
      "R0" ∈ Config.lookalikes.registerNames := by decide +kernel
  obtain ⟨_distinct, lists, _sessions, addresses⟩ :=
    Config.registers_distinct_and_addressable Config.lookalikes valid
  exact ⟨valid, lists.count, lists.increasing, addresses "r10" members.1,
    addresses "R0" members.2⟩

end PinMachine
