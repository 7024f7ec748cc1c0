import PinMachine.Proofs.Program.Literals
import PinMachine.Proofs.Token.Pieces
import PinMachine.Token.Basic
import PinMachine.Token.Spanned

/-!
Tokens with their captured parts given by bytes. If the lexeme of a token is well spelled,
slicing its text gives the captured parts, and these hold digits wherever a number is read.
The readers then come to what they come to on the lexeme, and no part is missing.
-/

namespace PinMachine

/-- The token with the bytes of its captured parts in place of the parts. -/
def Token.spanned (token : Token) : SpannedToken :=
  { text := token.text
    kind := token.kind
    line := token.line
    startColumn := token.startColumn
    endColumn := token.endColumn
    groups := token.lexeme.spans }

theorem isDigitOf_iff (base : Nat) (char : Char) :
    isDigitOf base char = true ↔ isHexDigit char = true ∧ tableValue char < base := by
  simp only [isDigitOf, Bool.and_eq_true, decide_eq_true_eq]
  refine and_congr_right fun digit => ?_
  rw [(digitValue_eq_tableValue digit).1]

/-- A text of digits is read for its size only. -/
theorem parseBelow?_of_digits (base bound : Nat) {digits : List Char} (nonempty : digits ≠ [])
    (inside : ∀ char ∈ digits, isHexDigit char = true ∧ tableValue char < base) :
    parseBelow? base bound digits = numeralBelow? base bound digits := by
  have unsigned : digits.head? ≠ some '+' := by
    intro plus
    have digit := (inside '+' (List.mem_of_head? plus)).1
    cases digit
  have all : digits.all (isDigitOf base) = true :=
    List.all_eq_true.mpr fun char member => (isDigitOf_iff base char).mpr (inside char member)
  unfold parseBelow?
  simp only [if_neg unsigned]
  exact if_pos ⟨nonempty, all⟩

theorem parseIndex_of_digits {digits : List Char} (run : IsRun Char.isDigit digits) :
    parseIndex digits = Lexeme.readIndex digits := by
  have parsed := parseBelow?_of_digits 10 pinIndexBound run.1 fun char member =>
    ⟨isHexDigit_of_isDigit (run.2 char member), tableValue_lt_of_isDigit (run.2 char member)⟩
  unfold parseIndex Lexeme.readIndex
  cases below : numeralBelow? 10 pinIndexBound digits with
  | none => simp only [parsed, below]
  | some number => simp only [parsed, below]

namespace Token

variable {token : Token}

theorem group_spanned {index : Nat} {part : List Char}
    (captured : token.lexeme.groups[index]? = some part) :
    token.spanned.group (index + 1) = .ok part := by
  have sliced := congrArg (fun parts => parts[index]?) token.lexeme.slice?_spans
  simp only [List.getElem?_map, captured, Option.map_some] at sliced
  obtain ⟨span, here, found⟩ := Option.map_eq_some_iff.mp sliced
  have grouped : token.spanned.group? (index + 1) = some part := by
    change (token.lexeme.spans[index]?).bind (fun span => span.slice? token.lexeme.text) = _
    rw [here]
    exact found
  unfold SpannedToken.group
  rw [grouped]

theorem bind_group_spanned {α : Type} (token : Token) (index : Nat) {part : List Char}
    (captured : token.lexeme.groups[index]? = some part)
    (next : List Char → Except ValueError α) :
    token.spanned.group (index + 1) >>= next = next part := by
  rw [group_spanned captured]
  rfl

theorem bind_readPin_spanned {α : Type} (token : Token) (index : Nat) {digits : List Char}
    (captured : token.lexeme.groups[index]? = some digits) (run : IsRun Char.isDigit digits)
    (next : Nat → Except ValueError α) :
    token.spanned.readPin (index + 1) >>= next = Lexeme.readIndex digits >>= next := by
  unfold SpannedToken.readPin
  rw [bind_group_spanned token index captured, parseIndex_of_digits run]

theorem readName_spanned (token : Token) : token.spanned.readName = token.lexeme.readName := by
  obtain ⟨lexeme, line, column⟩ := token
  cases lexeme with
  | label name | instruction name | register name | labelArgument name =>
      exact bind_group_spanned ⟨_, line, column⟩ 0 rfl fun name => pure (String.ofList name)
  | _ => rfl

theorem readPinIndex_spanned (token : Token) (spelled : token.lexeme.WellSpelled) :
    token.spanned.readPinIndex = token.lexeme.readPinIndex := by
  obtain ⟨lexeme, line, column⟩ := token
  cases lexeme with
  | pin index =>
      have read := bind_readPin_spanned ⟨.pin index, line, column⟩ 0 rfl spelled pure
      rw [bind_pure, bind_pure] at read
      exact read
  | _ => rfl

theorem readPinRange_spanned (token : Token) (spelled : token.lexeme.WellSpelled) :
    token.spanned.readPinRange = token.lexeme.readPinRange := by
  obtain ⟨lexeme, line, column⟩ := token
  cases lexeme with
  | pin index =>
      exact bind_readPin_spanned ⟨.pin index, line, column⟩ 0 rfl spelled _
  | pinRange first last =>
      refine (bind_readPin_spanned ⟨.pinRange first last, line, column⟩ 0 rfl spelled.1 _).trans ?_
      refine congrArg (Lexeme.readIndex first >>= ·) (funext fun start => ?_)
      exact bind_readPin_spanned ⟨.pinRange first last, line, column⟩ 1 rfl spelled.2 _
  | pinRangeLength first count =>
      refine (bind_readPin_spanned ⟨.pinRangeLength first count, line, column⟩ 0 rfl
        spelled.1 _).trans ?_
      refine congrArg (Lexeme.readIndex first >>= ·) (funext fun start => ?_)
      exact bind_readPin_spanned ⟨.pinRangeLength first count, line, column⟩ 1 rfl spelled.2.1 _
  | _ => rfl

theorem readNumeral_spanned (token : Token) (base : Nat) (keep : Char → Bool)
    {digits : List Char} (captured : token.lexeme.groups[0]? = some digits)
    (numeral : token.lexeme.numeral? = some (base, digits.filter keep))
    (nonempty : digits.filter keep ≠ [])
    (inside : ∀ char ∈ digits.filter keep, isHexDigit char = true ∧ tableValue char < base) :
    token.spanned.readNumeral base keep = token.lexeme.readConstant := by
  have parsed := parseBelow?_of_digits base (maxWord + 1) nonempty inside
  unfold SpannedToken.readNumeral Lexeme.readConstant
  rw [bind_group_spanned token 0 captured, numeral]
  cases below : numeralBelow? base (maxWord + 1) (digits.filter keep) with
  | none =>
      simp only [parsed, below]
      rfl
  | some number =>
      simp only [parsed, below]
      rfl

theorem readNumeral_spanned_of_run (token : Token) (base : Nat) {class? : Char → Bool}
    {digits : List Char} (captured : token.lexeme.groups[0]? = some digits)
    (numeral : token.lexeme.numeral? = some (base, digits)) (run : IsRun class? digits)
    (valued : ∀ char, class? char = true → isHexDigit char = true ∧ tableValue char < base) :
    token.spanned.readNumeral base (fun _ => true) = token.lexeme.readConstant := by
  have all : digits.filter (fun _ => true) = digits := List.filter_true digits
  refine readNumeral_spanned token base (fun _ => true) captured ?_ ?_ ?_
  · rw [all]
    exact numeral
  · rw [all]
    exact run.1
  · rw [all]
    exact fun char member => valued char (run.2 char member)

theorem readConstant_spanned (token : Token) (spelled : token.lexeme.WellSpelled) :
    token.spanned.readConstant = token.lexeme.readConstant := by
  obtain ⟨lexeme, line, column⟩ := token
  cases lexeme with
  | binary digits =>
      have writes : Token.WritesNumeral ⟨.binary digits, line, column⟩ 2 :=
        spelled.writesNumeral rfl
      refine readNumeral_spanned ⟨.binary digits, line, column⟩ 2 (· != '_') rfl rfl ?_ ?_
      · intro empty
        rcases spelled.2.1 with zero | one
        · have kept := List.filter_eq_nil_iff.mp empty '0' (List.mem_of_head? zero)
          exact kept rfl
        · have kept := List.filter_eq_nil_iff.mp empty '1' (List.mem_of_head? one)
          exact kept rfl
      · intro char member
        obtain ⟨inDigits, notUnderscore⟩ := List.mem_filter.mp member
        exact (writes.digits char inDigits).resolve_left (bne_iff_ne.mp notUnderscore)
  | hex digits =>
      exact readNumeral_spanned_of_run ⟨.hex digits, line, column⟩ 16 rfl rfl spelled
        fun char digit => ⟨digit, (digitValue_eq_tableValue digit).2⟩
  | integer digits =>
      exact readNumeral_spanned_of_run ⟨.integer digits, line, column⟩ 10 rfl rfl spelled
        fun char digit => ⟨isHexDigit_of_isDigit digit, tableValue_lt_of_isDigit digit⟩
  | _ => rfl

end Token

end PinMachine
