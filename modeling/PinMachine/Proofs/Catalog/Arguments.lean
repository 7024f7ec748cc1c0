import Mathlib.Data.List.Forall2
import PinMachine.Catalog.Standard
import PinMachine.Proofs.Program.Index
import PinMachine.Proofs.Validation.Accepted

/-!
Arguments of accepted instruction lines. An argument that passes its check and
that a parameter takes is a register of the configuration, a constant that fits a
word, a declared label, or pins that exist. So every instruction line of a program
that the standard catalog accepts is an operation with arguments that it applies
to, and the cases of `Operation.Applies` are all there are.
-/

namespace PinMachine

namespace Token

def IsRegister (config : Config) (token : Token) : Prop :=
  ∃ name, token.lexeme = .register name ∧ String.ofList name ∈ config.registerNames

def IsConstant (token : Token) : Prop :=
  token.kind.isConstant = true ∧ ∃ word, token.lexeme.readConstant = .ok word

/-- The token stands for a word. -/
def IsWord (config : Config) (token : Token) : Prop :=
  token.IsRegister config ∨ token.IsConstant

def IsLabel (program : Program) (token : Token) : Prop :=
  ∃ name line, token.lexeme = .labelArgument name ∧
    program.labelLine? (String.ofList name) = some line

/-- The token stands for a place to go on. -/
def IsTarget (config : Config) (program : Program) (token : Token) : Prop :=
  token.IsWord config ∨ token.IsLabel program

/-- The token names pins of the configuration, first to last. -/
def IsPins (config : Config) (token : Token) : Prop :=
  ∃ range, token.kind.isPin = true ∧ token.lexeme.readPinRange = .ok range ∧
    range.first ≤ range.last ∧ range.last < config.pins

end Token

/-- Operations with arguments that they can be executed with. -/
inductive Operation.Applies (config : Config) (program : Program) :
    Operation → List Token → Prop where
  | arithmeticOne (operator : Arithmetic) (operand : Token) (word : operand.IsWord config) :
      Applies config program (.arithmetic operator) [operand]
  | arithmeticTwo (operator : Arithmetic) (left right : Token)
      (leftWord : left.IsWord config) (rightWord : right.IsWord config) :
      Applies config program (.arithmetic operator) [left, right]
  | move (target source : Token) (register : target.IsRegister config)
      (value : source.IsTarget config program) :
      Applies config program .move [target, source]
  | bitwise (operator : Bitwise) (target source : Token)
      (register : target.IsRegister config) (word : source.IsWord config) :
      Applies config program (.bitwise operator) [target, source]
  | complement (target : Token) (register : target.IsRegister config) :
      Applies config program .complement [target]
  | shift (direction : ShiftDirection) (target source count : Token)
      (register : target.IsRegister config) (word : source.IsWord config)
      (amount : count.IsWord config) :
      Applies config program (.shift direction) [target, source, count]
  | test (comparison : Comparison) (left right : Token) (leftWord : left.IsWord config)
      (rightWord : right.IsWord config) :
      Applies config program (.test comparison) [left, right]
  | jump (target : Token) (place : target.IsTarget config program) :
      Applies config program .jump [target]
  | branch (comparison : Comparison) (target left right : Token)
      (place : target.IsTarget config program) (leftWord : left.IsWord config)
      (rightWord : right.IsWord config) :
      Applies config program (.branch comparison) [target, left, right]
  | call (target : Token) (place : target.IsTarget config program) :
      Applies config program .call [target]
  | giveBack (guard : ReturnGuard) : Applies config program (.giveBack guard) []
  | giveBackWord (guard : ReturnGuard) (operand : Token) (word : operand.IsWord config) :
      Applies config program (.giveBack guard) [operand]
  | sleep (operand : Token) (word : operand.IsWord config) :
      Applies config program .sleep [operand]
  | storePins (target source : Token) (pins : target.IsPins config)
      (word : source.IsWord config) :
      Applies config program .storePins [target, source]
  | loadPins (target source : Token) (register : target.IsRegister config)
      (pins : source.IsPins config) :
      Applies config program .loadPins [target, source]
  | clearPins (target : Token) (pins : target.IsPins config) :
      Applies config program .clearPins [target]

namespace Scope

private theorem declareLabel_cases (scope : Scope) (token : Token) :
    (scope.declareLabel token).1 = scope ∨
      ∃ name, token.lexeme.readName = .ok name ∧
        (scope.declareLabel token).1 = { scope with labels := scope.labels ++ [name] } := by
  unfold declareLabel
  cases read : token.lexeme.readName with
  | error error => exact Or.inl rfl
  | ok name =>
      by_cases known : name ∈ scope.labels
      · simp only [known, if_true, true_or]
      · right
        exact ⟨name, rfl, by simp only [known, if_false]⟩

theorem declareLabelsFrom_adds (tokens : List Token) (found : List Diagnostic)
    (scope : Scope) :
    (scope.declareLabelsFrom found tokens).1.registers = scope.registers ∧
      (scope.declareLabelsFrom found tokens).1.pinCount = scope.pinCount ∧
      ∀ name ∈ (scope.declareLabelsFrom found tokens).1.labels,
        name ∈ scope.labels ∨ ∃ token ∈ tokens, token.lexeme.readName = .ok name := by
  induction tokens generalizing found scope with
  | nil => exact ⟨rfl, rfl, fun name member => Or.inl member⟩
  | cons token rest ih =>
      unfold declareLabelsFrom
      obtain ⟨registers, pinCount, labels⟩ :=
        ih ((scope.declareLabel token).2.reverse ++ found) (scope.declareLabel token).1
      rcases scope.declareLabel_cases token with same | ⟨added, read, declared⟩
      · rw [same] at registers pinCount labels
        simp only [same]
        refine ⟨registers, pinCount, ?_⟩
        intro name member
        rcases labels name member with old | ⟨later, inRest, reads⟩
        · exact Or.inl old
        · exact Or.inr ⟨later, List.mem_cons_of_mem _ inRest, reads⟩
      · rw [declared] at registers pinCount labels
        simp only [declared]
        refine ⟨registers, pinCount, ?_⟩
        intro name member
        rcases labels name member with known | ⟨later, inRest, reads⟩
        · rcases List.mem_append.mp known with old | new
          · exact Or.inl old
          · rw [List.mem_singleton.mp new]
            exact Or.inr ⟨token, List.mem_cons_self, read⟩
        · exact Or.inr ⟨later, List.mem_cons_of_mem _ inRest, reads⟩

end Scope

namespace Program

theorem scope_registers (program : Program) (config : Config) :
    (program.scope config).registers = config.registerNames :=
  (Scope.declareLabelsFrom_adds program.labelTokens [] (.ofConfig config)).1

theorem scope_pinCount (program : Program) (config : Config) :
    (program.scope config).pinCount = config.pins :=
  (Scope.declareLabelsFrom_adds program.labelTokens [] (.ofConfig config)).2.1

private theorem labelName?_of_labelToken (line : Line) (token : Token) (name : String)
    (isLabel : line.isLabel = true) (first : line.tokens.head? = some token)
    (read : token.lexeme.readName = .ok name) : line.labelName? = some name := by
  unfold Line.isLabel Line.labelName? at isLabel
  unfold Line.labelName?
  cases shape : line.tokens with
  | nil =>
      rw [shape] at isLabel
      cases isLabel
  | cons leading rest =>
      rw [shape] at isLabel first
      obtain rfl : leading = token := Option.some.inj first
      obtain ⟨lexeme, place, column⟩ := leading
      cases lexeme with
      | label chars =>
          cases read
          rfl
      | _ => cases isLabel

theorem exists_labelLine?_of_mem_scope (program : Program) (config : Config) (name : String)
    (member : name ∈ (program.scope config).labels) :
    ∃ line, program.labelLine? name = some line := by
  rw [← Option.isSome_iff_exists]
  rcases (Scope.declareLabelsFrom_adds program.labelTokens [] (.ofConfig config)).2.2
    name member with none_yet | ⟨token, declares, read⟩
  · cases none_yet
  · unfold labelTokens at declares
    obtain ⟨line, kept, first⟩ := List.mem_filterMap.mp declares
    obtain ⟨inProgram, isLabel⟩ := List.mem_filter.mp kept
    have named := labelName?_of_labelToken line token name isLabel first read
    unfold labelLine?
    rw [program.labels_eq, List.lookup_isSome_iff]
    refine ⟨(name, line.index), ?_, beq_self_eq_true name⟩
    exact List.mem_filterMap.mpr ⟨line, inProgram, by rw [named]; rfl⟩

end Program

/-! ### Arguments that suit parameters -/

/-- A parameter takes the token, and the token passes its check. -/
def Scope.Suits (scope : Scope) (kinds : ParameterKinds) (token : Token) : Prop :=
  (∃ category, token.kind.category? = some category ∧ kinds.intersects category = true) ∧
    scope.checkToken token = []

namespace Scope

variable {config : Config} {program : Program} {token : Token}

private theorem isRegister_of_checkRegister (kind : token.kind = .register)
    (passes : (program.scope config).checkRegister token = []) :
    token.IsRegister config := by
  unfold Token.kind at kind
  cases shape : token.lexeme with
  | register name =>
      refine ⟨name, shape, ?_⟩
      simp only [checkRegister, shape, Lexeme.readName, program.scope_registers] at passes
      by_contra unknown
      rw [if_neg unknown] at passes
      cases passes
  | _ =>
      rw [shape] at kind
      cases kind

private theorem isLabel_of_checkLabel (kind : token.kind = .labelArgument)
    (passes : (program.scope config).checkLabel token = []) : token.IsLabel program := by
  unfold Token.kind at kind
  cases shape : token.lexeme with
  | labelArgument name =>
      have declared : String.ofList name ∈ (program.scope config).labels := by
        simp only [checkLabel, shape, Lexeme.readName] at passes
        by_contra unknown
        rw [if_neg unknown] at passes
        cases passes
      obtain ⟨line, found⟩ := program.exists_labelLine?_of_mem_scope config _ declared
      exact ⟨name, line, shape, found⟩
  | _ =>
      rw [shape] at kind
      cases kind

private theorem isConstant_of_checkConstant (constant : token.kind.isConstant = true)
    (passes : checkConstant token = []) : token.IsConstant := by
  refine ⟨constant, ?_⟩
  unfold checkConstant at passes
  split at passes
  · rename_i word read
    exact ⟨word, read⟩
  · cases passes
  · cases passes

private theorem isPins_of_checkPin (kind : token.kind = .pin)
    (passes : (program.scope config).checkPin token = []) : token.IsPins config := by
  have isPin : token.kind.isPin = true := by
    rw [kind]
    rfl
  unfold Token.kind at kind
  cases shape : token.lexeme with
  | pin index =>
      simp only [checkPin, shape, Lexeme.readPinIndex, program.scope_pinCount] at passes
      cases read : Lexeme.readIndex index with
      | error error =>
          rw [read] at passes
          cases passes
      | ok number =>
          rw [read] at passes
          refine ⟨.single number, isPin, ?_, Nat.le_refl _, ?_⟩
          · simp only [shape, Lexeme.readPinRange, read]
            rfl
          · change number < config.pins
            by_contra outside
            simp only [outside, if_false] at passes
            cases passes
  | _ =>
      rw [shape] at kind
      cases kind

private theorem isPins_of_checkPinRange (isPin : token.kind.isPin = true)
    (passes : (program.scope config).checkPinRange token = []) : token.IsPins config := by
  unfold checkPinRange at passes
  cases read : token.lexeme.readPinRange with
  | error error =>
      rw [read] at passes
      cases passes
  | ok range =>
      rw [read] at passes
      obtain ⟨forward, inside⟩ := List.append_eq_nil_iff.mp passes
      rw [program.scope_pinCount] at inside
      refine ⟨range, isPin, read, ?_, ?_⟩
      · by_contra backward
        rw [if_pos (by omega)] at forward
        cases forward
      · by_contra outside
        rw [if_neg outside] at inside
        cases inside

theorem sort_of_checkToken (category : ParameterKinds)
    (categorized : token.kind.category? = some category)
    (passes : (program.scope config).checkToken token = []) :
    category = .onlyRegister ∧ token.IsRegister config ∨
      category = .onlyConstant ∧ token.IsConstant ∨
      category = .onlyLabel ∧ token.IsLabel program ∨
      (category = .onlyPinSingle ∨ category = .onlyPinMultiple) ∧ token.IsPins config := by
  unfold checkToken at passes
  cases kind : token.kind <;> rw [kind] at categorized <;> cases categorized <;>
    simp only [kind] at passes
  case register => exact Or.inl ⟨rfl, isRegister_of_checkRegister kind passes⟩
  case labelArgument =>
      exact Or.inr (Or.inr (Or.inl ⟨rfl, isLabel_of_checkLabel kind passes⟩))
  case pin => exact Or.inr (Or.inr (Or.inr ⟨Or.inl rfl, isPins_of_checkPin kind passes⟩))
  case pinRange =>
      have isPin : token.kind.isPin = true := by rw [kind]; rfl
      exact Or.inr (Or.inr (Or.inr ⟨Or.inr rfl, isPins_of_checkPinRange isPin passes⟩))
  case pinRangeLength =>
      have isPin : token.kind.isPin = true := by rw [kind]; rfl
      exact Or.inr (Or.inr (Or.inr ⟨Or.inr rfl, isPins_of_checkPinRange isPin passes⟩))
  all_goals
    have constant : token.kind.isConstant = true := by rw [kind]; rfl
    exact Or.inr (Or.inl ⟨rfl, isConstant_of_checkConstant constant passes⟩)

theorem Suits.register (suits : (program.scope config).Suits .onlyRegister token) :
    token.IsRegister config := by
  obtain ⟨⟨category, categorized, taken⟩, passes⟩ := suits
  rcases sort_of_checkToken category categorized passes with
    ⟨rfl, sort⟩ | ⟨rfl, sort⟩ | ⟨rfl, sort⟩ | ⟨rfl | rfl, sort⟩
  · exact sort
  all_goals cases taken

theorem Suits.word (suits : (program.scope config).Suits .registerOrConstant token) :
    token.IsWord config := by
  obtain ⟨⟨category, categorized, taken⟩, passes⟩ := suits
  rcases sort_of_checkToken category categorized passes with
    ⟨rfl, sort⟩ | ⟨rfl, sort⟩ | ⟨rfl, sort⟩ | ⟨rfl | rfl, sort⟩
  · exact Or.inl sort
  · exact Or.inr sort
  all_goals cases taken

theorem Suits.target (suits : (program.scope config).Suits .registerConstantOrLabel token) :
    token.IsTarget config program := by
  obtain ⟨⟨category, categorized, taken⟩, passes⟩ := suits
  rcases sort_of_checkToken category categorized passes with
    ⟨rfl, sort⟩ | ⟨rfl, sort⟩ | ⟨rfl, sort⟩ | ⟨rfl | rfl, sort⟩
  · exact Or.inl (Or.inl sort)
  · exact Or.inl (Or.inr sort)
  · exact Or.inr sort
  all_goals cases taken

theorem Suits.pins (suits : (program.scope config).Suits .anyPins token) :
    token.IsPins config := by
  obtain ⟨⟨category, categorized, taken⟩, passes⟩ := suits
  rcases sort_of_checkToken category categorized passes with
    ⟨rfl, sort⟩ | ⟨rfl, sort⟩ | ⟨rfl, sort⟩ | ⟨rfl | rfl, sort⟩
  · cases taken
  · cases taken
  · cases taken
  · exact sort
  · exact sort

end Scope

/-! ### Resolved lines -/

theorem Catalog.resolve_eq_ok (catalog : Catalog) (name : String) (kinds : List TokenKind)
    (definition : Definition) (resolved : catalog.resolve name kinds = .ok definition) :
    definition ∈ catalog.definitions ∧ definition.name = name ∧
      ∃ categories, kinds.mapM TokenKind.category = .ok categories ∧
        definition.accepts categories = true := by
  unfold resolve at resolved
  cases read : kinds.mapM TokenKind.category with
  | error error =>
      rw [read] at resolved
      cases resolved
  | ok categories =>
      rw [read] at resolved
      change select name (catalog.overloads name) categories = .ok definition at resolved
      unfold select at resolved
      split at resolved
      · cases resolved
      · rename_i first rest overloads
        split at resolved
        · rename_i found selected
          cases resolved
          have member := List.mem_of_find?_eq_some selected
          have accepts := List.find?_some selected
          obtain ⟨declared, named⟩ := List.mem_filter.mp member
          exact ⟨declared, eq_of_beq named, categories, rfl, accepts⟩
        · cases resolved

theorem Definition.suits_of_accepts (scope : Scope) (tokens : List Token)
    (categories parameters : List ParameterKinds)
    (read : (tokens.map Token.kind).mapM TokenKind.category = .ok categories)
    (count : parameters.length = categories.length)
    (taken : ∀ pair ∈ parameters.zip categories, pair.1.intersects pair.2 = true)
    (passes : ∀ token ∈ tokens, scope.checkToken token = []) :
    List.Forall₂ scope.Suits parameters tokens := by
  induction tokens generalizing categories parameters with
  | nil =>
      cases read
      rw [List.eq_nil_of_length_eq_zero count]
      exact .nil
  | cons token rest ih =>
      rw [List.map_cons, List.mapM_cons] at read
      cases category? : token.kind.category? with
      | none =>
          simp only [TokenKind.category, category?] at read
          cases read
      | some category =>
          cases later : (rest.map Token.kind).mapM TokenKind.category with
          | error error =>
              rw [later] at read
              simp only [TokenKind.category, category?] at read
              cases read
          | ok others =>
              rw [later] at read
              simp only [TokenKind.category, category?] at read
              cases read
              cases parameters with
              | nil => cases count
              | cons parameter parameters =>
                  refine .cons ⟨⟨category, category?, ?_⟩, ?_⟩ ?_
                  · exact taken (parameter, category) List.mem_cons_self
                  · exact passes token List.mem_cons_self
                  · apply ih others parameters later (Nat.succ.inj count)
                    · intro pair member
                      exact taken pair (List.mem_cons_of_mem _ member)
                    · intro other member
                      exact passes other (List.mem_cons_of_mem _ member)

def Operation.parameterLists : Operation → List (List ParameterKinds)
  | .arithmetic _ =>
      [[.registerOrConstant], [.registerOrConstant, .registerOrConstant]]
  | .move => [[.onlyRegister, .registerConstantOrLabel]]
  | .bitwise _ => [[.onlyRegister, .registerOrConstant]]
  | .complement => [[.onlyRegister]]
  | .shift _ => [[.onlyRegister, .registerOrConstant, .registerOrConstant]]
  | .test _ => [[.registerOrConstant, .registerOrConstant]]
  | .jump => [[.registerConstantOrLabel]]
  | .branch _ => [[.registerConstantOrLabel, .registerOrConstant, .registerOrConstant]]
  | .call => [[.registerConstantOrLabel]]
  | .giveBack _ => [[], [.registerOrConstant]]
  | .sleep => [[.registerOrConstant]]
  | .storePins => [[.anyPins, .registerOrConstant]]
  | .loadPins => [[.onlyRegister, .anyPins]]
  | .clearPins => [[.anyPins]]

private theorem mem_parameterLists_of_row :
    ∀ row ∈ standardTable, row.2 ∈ row.1.parameterLists := by
  decide

variable {config : Config} {program : Program}

/-- Arguments that suit a row of the operation are arguments that it applies to. -/
theorem Operation.applies_of_suits (operation : Operation) (parameters : List ParameterKinds)
    (arguments : List Token) (row : parameters ∈ operation.parameterLists)
    (suits : List.Forall₂ (program.scope config).Suits parameters arguments) :
    operation.Applies config program arguments := by
  cases operation with
  | arithmetic operator =>
      simp only [parameterLists, List.mem_cons, List.not_mem_nil, or_false] at row
      rcases row with rfl | rfl
      · obtain _ | ⟨first, _ | _⟩ := suits
        exact .arithmeticOne _ _ first.word
      · obtain _ | ⟨first, _ | ⟨second, _ | _⟩⟩ := suits
        exact .arithmeticTwo _ _ _ first.word second.word
  | move =>
      obtain rfl := List.mem_singleton.mp row
      obtain _ | ⟨first, _ | ⟨second, _ | _⟩⟩ := suits
      exact .move _ _ first.register second.target
  | bitwise operator =>
      obtain rfl := List.mem_singleton.mp row
      obtain _ | ⟨first, _ | ⟨second, _ | _⟩⟩ := suits
      exact .bitwise _ _ _ first.register second.word
  | complement =>
      obtain rfl := List.mem_singleton.mp row
      obtain _ | ⟨first, _ | _⟩ := suits
      exact .complement _ first.register
  | shift direction =>
      obtain rfl := List.mem_singleton.mp row
      obtain _ | ⟨first, _ | ⟨second, _ | ⟨third, _ | _⟩⟩⟩ := suits
      exact .shift _ _ _ _ first.register second.word third.word
  | test comparison =>
      obtain rfl := List.mem_singleton.mp row
      obtain _ | ⟨first, _ | ⟨second, _ | _⟩⟩ := suits
      exact .test _ _ _ first.word second.word
  | jump =>
      obtain rfl := List.mem_singleton.mp row
      obtain _ | ⟨first, _ | _⟩ := suits
      exact .jump _ first.target
  | branch comparison =>
      obtain rfl := List.mem_singleton.mp row
      obtain _ | ⟨first, _ | ⟨second, _ | ⟨third, _ | _⟩⟩⟩ := suits
      exact .branch _ _ _ _ first.target second.word third.word
  | call =>
      obtain rfl := List.mem_singleton.mp row
      obtain _ | ⟨first, _ | _⟩ := suits
      exact .call _ first.target
  | giveBack guard =>
      simp only [parameterLists, List.mem_cons, List.not_mem_nil, or_false] at row
      rcases row with rfl | rfl
      · obtain _ | _ := suits
        exact .giveBack _
      · obtain _ | ⟨first, _ | _⟩ := suits
        exact .giveBackWord _ _ first.word
  | sleep =>
      obtain rfl := List.mem_singleton.mp row
      obtain _ | ⟨first, _ | _⟩ := suits
      exact .sleep _ first.word
  | storePins =>
      obtain rfl := List.mem_singleton.mp row
      obtain _ | ⟨first, _ | ⟨second, _ | _⟩⟩ := suits
      exact .storePins _ _ first.pins second.word
  | loadPins =>
      obtain rfl := List.mem_singleton.mp row
      obtain _ | ⟨first, _ | ⟨second, _ | _⟩⟩ := suits
      exact .loadPins _ _ first.register second.pins
  | clearPins =>
      obtain rfl := List.mem_singleton.mp row
      obtain _ | ⟨first, _ | _⟩ := suits
      exact .clearPins _ first.pins

/-- An instruction line of a program that the standard catalog accepts is an
operation, under its mnemonic, with arguments that it applies to. -/
theorem Program.instruction_applies (program : Program) (config : Config)
    (accepted : (program.validate config .standard).isOk = true) (line : Line)
    (member : line ∈ program.lines) (name : String)
    (instruction : line.instructionName? = some name) :
    ∃ operation : Operation, operation.mnemonic = name ∧
      operation.Applies config program line.arguments ∧
      line.dispatch? .standard = some ⟨operation.behavior, line.arguments⟩ := by
  obtain ⟨⟨definition, resolved⟩, passes⟩ :=
    program.instruction_accepted config .standard accepted line member name instruction
  obtain ⟨declared, named, categories, read, accepts⟩ :=
    Catalog.resolve_eq_ok .standard name _ definition resolved
  obtain ⟨row, inTable, rfl⟩ := List.mem_map.mp declared
  unfold Definition.accepts at accepts
  obtain ⟨count, taken⟩ := Bool.and_eq_true_iff.mp accepts
  have suits := Definition.suits_of_accepts (program.scope config) line.arguments categories
    row.2 read (eq_of_beq count) (List.all_eq_true.mp taken) passes
  refine ⟨row.1, named, ?_, ?_⟩
  · exact row.1.applies_of_suits row.2 _ (mem_parameterLists_of_row row inTable) suits
  · simp only [Line.dispatch?, instruction, resolved, Definition.ofOperation]

theorem Program.dispatch_applies (program : Program) (config : Config)
    (accepted : (program.validate config .standard).isOk = true) (index : Nat)
    (entry : Dispatch)
    (found : (program.lines.map fun line => line.dispatch? .standard).toArray[index]? =
      some (some entry)) :
    ∃ line ∈ program.lines, ∃ operation : Operation,
      line.instructionName? = some operation.mnemonic ∧
        operation.Applies config program line.arguments ∧
        entry = ⟨operation.behavior, line.arguments⟩ := by
  rw [List.getElem?_toArray, List.getElem?_map] at found
  obtain ⟨line, place, dispatched⟩ := Option.map_eq_some_iff.mp found
  have member := List.mem_of_getElem? place
  cases instruction : line.instructionName? with
  | none =>
      simp only [Line.dispatch?, instruction] at dispatched
      cases dispatched
  | some name =>
      obtain ⟨operation, rfl, applies, dispatch⟩ :=
        program.instruction_applies config accepted line member name instruction
      rw [dispatch] at dispatched
      exact ⟨line, member, operation, instruction, applies, (Option.some.inj dispatched).symm⟩

end PinMachine
