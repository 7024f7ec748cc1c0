import PinMachine.Proofs.Text.Numeral
import PinMachine.Token.Value

/-!
Values of lexemes, said by the numbers that their digits denote. The readers succeed
exactly if these numbers stay below their bounds.
-/

namespace PinMachine

/-- Digits that write a number below 2^64. -/
def IsIndex (digits : List Char) : Prop :=
  numeralValue 10 digits < pinIndexBound

namespace Lexeme

theorem readIndex_eq (digits : List Char) :
    readIndex digits =
      if numeralValue 10 digits < pinIndexBound then .ok (numeralValue 10 digits)
      else .error (.overflow (String.ofList digits)) := by
  unfold readIndex
  rw [numeralBelow?_eq 10 pinIndexBound (by decide)]
  by_cases below : numeralValue 10 digits < pinIndexBound
  · rw [if_pos below, if_pos below]
  · rw [if_neg below, if_neg below]

theorem bind_readIndex_eq_ok_iff {α : Type} (digits : List Char)
    (next : Nat → Except ValueError α) (result : α) :
    readIndex digits >>= next = .ok result ↔
      IsIndex digits ∧ next (numeralValue 10 digits) = .ok result := by
  rw [readIndex_eq]
  by_cases below : numeralValue 10 digits < pinIndexBound
  · have index : IsIndex digits := below
    rw [if_pos below]
    exact (and_iff_right index).symm
  · have large : ¬ IsIndex digits := below
    rw [if_neg below]
    constructor
    · intro read
      cases read
    · rintro ⟨index, _goesOn⟩
      exact False.elim (large index)

theorem readPinIndex_pin_iff (digits : List Char) (index : Nat) :
    readPinIndex (.pin digits) = .ok index ↔
      IsIndex digits ∧ numeralValue 10 digits = index := by
  have read := bind_readIndex_eq_ok_iff digits pure index
  rw [bind_pure] at read
  simp only [pure, Except.pure, Except.ok.injEq] at read
  exact read

theorem readPinRange_pin_iff (digits : List Char) (range : PinRange) :
    readPinRange (.pin digits) = .ok range ↔
      IsIndex digits ∧ PinRange.single (numeralValue 10 digits) = range := by
  simp only [readPinRange, bind_readIndex_eq_ok_iff, pure, Except.pure, Except.ok.injEq]

theorem readPinRange_pinRange_iff (first last : List Char) (range : PinRange) :
    readPinRange (.pinRange first last) = .ok range ↔
      IsIndex first ∧ IsIndex last ∧
        (⟨numeralValue 10 first, numeralValue 10 last⟩ : PinRange) = range := by
  simp only [readPinRange, bind_readIndex_eq_ok_iff, pure, Except.pure, Except.ok.injEq]

theorem readPinRange_pinRangeLength_iff (first count : List Char) (range : PinRange) :
    readPinRange (.pinRangeLength first count) = .ok range ↔
      numeralValue 10 first + numeralValue 10 count < pinIndexBound ∧
        range.first = numeralValue 10 first ∧
        numeralValue 10 first + numeralValue 10 count = range.last + 1 := by
  obtain ⟨start, last⟩ := range
  simp only [readPinRange, bind_readIndex_eq_ok_iff, IsIndex]
  split
  · simp only [pure, Except.pure, Except.ok.injEq, PinRange.mk.injEq]
    omega
  · constructor
    · rintro ⟨_firstIndex, _countIndex, read⟩
      cases read
    · omega

theorem readConstant_eq (lexeme : Lexeme) (base : Nat) (digits : List Char)
    (numeral : lexeme.numeral? = some (base, digits)) :
    lexeme.readConstant =
      if numeralValue base digits ≤ maxWord then
        .ok (BitVec.ofNat 16 (numeralValue base digits))
      else .error (.overflow (String.ofList lexeme.text)) := by
  have positive : 0 < base := by
    unfold numeral? at numeral
    split at numeral <;> cases numeral <;> decide
  unfold readConstant
  rw [numeral]
  simp only [numeralBelow?_eq base (maxWord + 1) positive, Nat.lt_succ_iff]
  by_cases fits : numeralValue base digits ≤ maxWord
  · rw [if_pos fits, if_pos fits]
  · rw [if_neg fits, if_neg fits]

theorem readConstant_of_numeral (lexeme : Lexeme) (base : Nat) (digits : List Char)
    (numeral : lexeme.numeral? = some (base, digits)) (fits : numeralValue base digits ≤ maxWord) :
    lexeme.kind.isConstant = true ∧
      lexeme.readConstant = .ok (BitVec.ofNat 16 (numeralValue base digits)) := by
  constructor
  · unfold numeral? at numeral
    split at numeral <;> cases numeral <;> rfl
  · rw [lexeme.readConstant_eq base digits numeral, if_pos fits]

end Lexeme

end PinMachine
