import PinMachine.Proofs.Catalog.Arguments
import PinMachine.Proofs.Config.Names
import PinMachine.Proofs.Validation.WellFormed

/-!
Checks under a larger configuration. Declaring labels does not look at registers or pins,
and a token that may be used where there is less may be used where there is more. So a
program that is accepted under a configuration has the same diagnostics under every larger
one.
-/

namespace PinMachine

/-- The larger scope has the same labels, and all registers and pins of the other one. -/
structure Scope.Within (scope larger : Scope) : Prop where
  registers : ∀ name ∈ scope.registers, name ∈ larger.registers
  labels : scope.labels = larger.labels
  pinCount : scope.pinCount ≤ larger.pinCount

namespace Scope

variable {scope larger : Scope}

theorem Within.checkRegister (within : scope.Within larger) (token : Token)
    (passes : scope.checkRegister token = []) : larger.checkRegister token = [] := by
  unfold Scope.checkRegister at passes ⊢
  cases read : token.lexeme.readName with
  | error error =>
      rw [read] at passes
      cases passes
  | ok name =>
      rw [read] at passes
      by_cases known : name ∈ scope.registers
      · exact if_pos (within.registers name known)
      · simp only [if_neg known] at passes
        cases passes

theorem Within.checkPin (within : scope.Within larger) (token : Token)
    (passes : scope.checkPin token = []) : larger.checkPin token = [] := by
  rw [checkPin_eq_nil_iff] at passes ⊢
  obtain ⟨index, read, inside⟩ := passes
  exact ⟨index, read, Nat.lt_of_lt_of_le inside within.pinCount⟩

theorem Within.checkPinRange (within : scope.Within larger) (token : Token)
    (passes : scope.checkPinRange token = []) : larger.checkPinRange token = [] := by
  rw [checkPinRange_eq_nil_iff] at passes ⊢
  obtain ⟨range, read, forward, inside⟩ := passes
  exact ⟨range, read, forward, Nat.lt_of_lt_of_le inside within.pinCount⟩

theorem Within.checkToken (within : scope.Within larger) (token : Token)
    (passes : scope.checkToken token = []) : larger.checkToken token = [] := by
  unfold Scope.checkToken at passes ⊢
  cases kind : token.kind with
  | register =>
      rw [kind] at passes
      exact within.checkRegister token passes
  | labelArgument =>
      rw [kind] at passes
      simp only [checkLabel, ← within.labels]
      exact passes
  | pin =>
      rw [kind] at passes
      exact within.checkPin token passes
  | pinRange =>
      rw [kind] at passes
      exact within.checkPinRange token passes
  | pinRangeLength =>
      rw [kind] at passes
      exact within.checkPinRange token passes
  | binary =>
      rw [kind] at passes
      exact passes
  | hex =>
      rw [kind] at passes
      exact passes
  | integer =>
      rw [kind] at passes
      exact passes
  | label => rfl
  | instruction => rfl
  | whitespace => rfl
  | comment => rfl

theorem declareLabel_of_labels (same : scope.labels = larger.labels) (token : Token) :
    (scope.declareLabel token).1.labels = (larger.declareLabel token).1.labels ∧
      (scope.declareLabel token).2 = (larger.declareLabel token).2 := by
  unfold declareLabel
  cases token.lexeme.readName with
  | error error => exact ⟨same, rfl⟩
  | ok name =>
      by_cases known : name ∈ larger.labels
      · simp only [same, if_pos known, and_self]
      · simp only [same, if_neg known, and_self]

theorem declareLabelsFrom_of_labels (same : scope.labels = larger.labels)
    (found : List Diagnostic) (tokens : List Token) :
    (scope.declareLabelsFrom found tokens).1.labels =
        (larger.declareLabelsFrom found tokens).1.labels ∧
      (scope.declareLabelsFrom found tokens).2 = (larger.declareLabelsFrom found tokens).2 := by
  induction tokens generalizing found scope larger with
  | nil => exact ⟨same, rfl⟩
  | cons token rest ih =>
      obtain ⟨labels, problems⟩ := declareLabel_of_labels same token
      simp only [declareLabelsFrom, problems]
      exact ih labels _

end Scope

theorem Line.flatMap_checkToken_of_clean (scope : Scope) (tokens : List Token)
    (clean : ∀ entry ∈ tokens.flatMap scope.checkToken, entry.severity ≠ .error) :
    ∀ token ∈ tokens, scope.checkToken token = [] := by
  intro token given
  apply scope.checkToken_eq_nil_of_clean
  intro entry reported
  exact clean entry (List.mem_flatMap.mpr ⟨token, given, reported⟩)

theorem Line.check_of_within {scope larger : Scope} (within : scope.Within larger) (line : Line)
    (catalog : Catalog)
    (clean : ∀ entry ∈ line.check scope catalog, entry.severity ≠ .error) :
    line.check larger catalog = line.check scope catalog := by
  have tokens : (∀ entry ∈ line.arguments.flatMap scope.checkToken, entry.severity ≠ .error) →
      line.arguments.flatMap larger.checkToken = line.arguments.flatMap scope.checkToken := by
    intro free
    have passes := Line.flatMap_checkToken_of_clean scope line.arguments free
    rw [List.flatMap_eq_nil_iff.mpr passes, List.flatMap_eq_nil_iff]
    intro token given
    exact within.checkToken token (passes token given)
  unfold Line.check at clean ⊢
  cases unparsed : line.unparsed with
  | some column => rfl
  | none =>
      rw [unparsed] at clean
      simp only at clean ⊢
      split
      · rfl
      · rename_i shown
        rw [if_neg shown] at clean
        split
        · rename_i label
          rw [if_pos label] at clean
          rw [tokens fun entry reported => clean entry (List.mem_append_right _ reported)]
        · rename_i notLabel
          rw [if_neg notLabel] at clean
          split
          · rename_i instruction
            rw [if_pos instruction] at clean
            rw [tokens fun entry reported => clean entry (List.mem_append_right _ reported)]
          · rfl

theorem Program.scope_within {small large : Config} (within : small.Within large)
    (program : Program) : (program.scope small).Within (program.scope large) := by
  have same : (Scope.ofConfig small).labels = (Scope.ofConfig large).labels := rfl
  obtain ⟨smallRegisters, smallPins, _smallLabels⟩ :=
    Scope.declareLabelsFrom_adds program.labelTokens [] (Scope.ofConfig small)
  obtain ⟨largeRegisters, largePins, _largeLabels⟩ :=
    Scope.declareLabelsFrom_adds program.labelTokens [] (Scope.ofConfig large)
  unfold Program.scope Scope.declareLabels
  constructor
  · rw [smallRegisters, largeRegisters]
    exact within.mem_registerNames
  · exact (Scope.declareLabelsFrom_of_labels same [] program.labelTokens).1
  · rw [smallPins, largePins]
    exact within.pins

/-- An accepted program has the same diagnostics under every larger configuration. -/
theorem Program.validate_of_within {small large : Config} (within : small.Within large)
    (program : Program) (catalog : Catalog)
    (accepted : (program.validate small catalog).isOk = true) :
    program.validate large catalog = program.validate small catalog := by
  have clean := (Diagnostics.isOk_ofList_iff _).mp accepted
  have same : (Scope.ofConfig small).labels = (Scope.ofConfig large).labels := rfl
  have repeated := (Scope.declareLabelsFrom_of_labels same [] program.labelTokens).2
  have lines : ∀ line ∈ program.lines, line.check (program.scope large) catalog =
      line.check (program.scope small) catalog := by
    intro line member
    apply line.check_of_within (program.scope_within within) catalog
    intro entry reported
    apply clean
    apply List.mem_append_right
    exact List.mem_flatMap.mpr ⟨line, member, reported⟩
  have checked : program.lines.flatMap (fun line => line.check (program.scope large) catalog) =
      program.lines.flatMap fun line => line.check (program.scope small) catalog := by
    rw [List.flatMap_def, List.flatMap_def, List.map_congr_left lines]
  change Diagnostics.ofList (((Scope.ofConfig large).declareLabels program.labelTokens).2 ++
    program.lines.flatMap fun line => line.check (program.scope large) catalog) = _
  rw [checked]
  unfold Scope.declareLabels
  rw [← repeated]
  rfl

end PinMachine
