import PinMachine.Proofs.Catalog.Arguments
import PinMachine.Proofs.Reference.Semantics
import PinMachine.Proofs.Token.Value

/-!
Reading lines for the reference semantics. The names of the instructions are the
mnemonics of the operations, a label stands for the line that declares it first, and
an address is followed by the same instruction line. So every argument of an accepted
line is an operand with the value that its reader gives.
-/

namespace PinMachine

namespace Reference

theorem lookup_mnemonic (operation : Operation) :
    names.lookup operation.mnemonic = some operation := by
  cases operation with
  | arithmetic operator => cases operator <;> rfl
  | bitwise operator => cases operator <;> rfl
  | shift direction => cases direction <;> rfl
  | test comparison => cases comparison <;> rfl
  | branch comparison => cases comparison <;> rfl
  | giveBack guard => cases guard <;> rfl
  | _ => rfl

theorem firstFrom_eq (program : Program) (indexed : Indexed program.lines)
    (address : Nat) : firstFrom program address = program.nextInstruction? address := by
  unfold firstFrom
  cases next : program.nextInstruction? address with
  | none =>
      have absent := (program.nextInstruction?_eq_none_iff address).mp next
      rw [List.find?_eq_none]
      intro index inside accepted
      obtain ⟨notBefore, holds⟩ := Bool.and_eq_true_iff.mp accepted
      rw [absent index (of_decide_eq_true notBefore)] at holds
      cases holds
  | some index =>
      obtain ⟨notBefore, holds, earlier⟩ :=
        (program.nextInstruction?_eq_some_iff indexed address index).mp next
      rw [List.find?_range_eq_some]
      refine ⟨?_, List.mem_range.mpr (program.lt_length_of_holdsInstruction index holds), ?_⟩
      · rw [decide_eq_true notBefore, holds]
        rfl
      · intro between before
        by_cases after : address ≤ between
        · rw [earlier between after before, Bool.and_false]
          rfl
        · rw [decide_eq_false after]
          rfl

private theorem lookup_labelDeclarations (lines : List Line) (label : String) (start : Nat)
    (indexed : ∀ (position : Nat) (line : Line), lines[position]? = some line →
      line.index = start + position) :
    (labelDeclarations lines).lookup label =
      (lines.findIdx? fun line => line.labelName? == some label).map (start + ·) := by
  induction lines generalizing start with
  | nil => rfl
  | cons line rest ih =>
      have here : line.index = start := indexed 0 line rfl
      have later := ih (start + 1) (by
        intro position other place
        rw [indexed (position + 1) other place]
        omega)
      have shifted : ∀ found : Option Nat,
          found.map (start + 1 + ·) = (found.map (· + 1)).map (start + ·) := by
        intro found
        rw [Option.map_map]
        congr 1
        funext position
        exact Nat.add_right_comm start 1 position
      rw [List.findIdx?_cons]
      have unfolded : labelDeclarations (line :: rest) =
          (line.labelName?.map fun name => (name, line.index)).toList ++
            labelDeclarations rest := by
        unfold labelDeclarations
        rw [List.filterMap_cons]
        cases line.labelName? <;> rfl
      rw [unfolded]
      cases named : line.labelName? with
      | none =>
          change (labelDeclarations rest).lookup label = _
          rw [later, shifted, if_neg (by simp)]
      | some name =>
          by_cases same : name = label
          · simp [same, here]
          · have apart : (label == name) = false := by
              simpa using fun equal => same equal.symm
            have other : (some name == some label) = false := by simpa using same
            rw [other, if_neg Bool.false_ne_true, ← shifted, ← later]
            change (List.lookup label ((name, line.index) :: labelDeclarations rest)) = _
            simp only [List.lookup_cons, apart]

theorem labelAddress?_eq (program : Program) (indexed : Indexed program.lines)
    (label : String) :
    labelAddress? program label = (program.labelLine? label).map (· + 1) := by
  unfold labelAddress? Program.labelLine?
  rw [program.labels_eq, lookup_labelDeclarations program.lines label 0 (by
    intro position line place
    rw [indexed position line place, Nat.zero_add]), Option.map_map]
  congr 1
  funext position
  simp only [Function.comp_apply, Nat.zero_add]

theorem ofLexeme?_of_readConstant (program : Program) (lexeme : Lexeme) (word : Word)
    (read : lexeme.readConstant = .ok word) :
    Operand.ofLexeme? program lexeme = some (.number word.toNat) := by
  unfold Lexeme.readConstant at read
  cases shape : lexeme.numeral? with
  | none =>
      rw [shape] at read
      cases read
  | some numeral =>
      obtain ⟨base, digits⟩ := numeral
      rw [shape] at read
      simp only at read
      cases below : numeralBelow? base (maxWord + 1) digits with
      | none =>
          rw [below] at read
          cases read
      | some number =>
          rw [below] at read
          cases read
          obtain ⟨value, bound⟩ :=
            numeralValue_of_numeralBelow? base (maxWord + 1) digits number below
          have fits : (BitVec.ofNat 16 number).toNat = number := by
            rw [BitVec.toNat_ofNat]
            exact Nat.mod_eq_of_lt bound
          rw [fits, ← value]
          cases lexeme with
          | binary written =>
              cases shape
              rfl
          | hex written =>
              cases shape
              rfl
          | integer written =>
              cases shape
              rfl
          | _ => cases shape

theorem ofLexeme?_of_readPinRange (program : Program) (lexeme : Lexeme)
    (range : PinRange) (read : lexeme.readPinRange = .ok range) :
    Operand.ofLexeme? program lexeme = some (.pins range.first range.last) := by
  cases lexeme with
  | pin index =>
      obtain ⟨_index, rfl⟩ := (Lexeme.readPinRange_pin_iff index range).mp read
      rfl
  | pinRange first last =>
      obtain ⟨_first, _last, rfl⟩ := (Lexeme.readPinRange_pinRange_iff first last range).mp read
      rfl
  | pinRangeLength first count =>
      obtain ⟨_small, start, ends⟩ :=
        (Lexeme.readPinRange_pinRangeLength_iff first count range).mp read
      simp only [Operand.ofLexeme?, start, ends, Nat.add_sub_cancel]
  | _ => cases read

end Reference

end PinMachine
