import PinMachine.Proofs.Program.Literals
import PinMachine.Proofs.Program.Printing

/-!
What pin ranges denote. There are three notations: one pin, the first and the last pin, and
the first pin with how many there are. A token in one of them is read as the range between
the numbers that it writes, or refused if a number has more than 64 bits; a counted range is
refused also if its sum has. A range lists as many pins as it counts, and the text that it is
shown by is read back as the range.
-/

namespace PinMachine

namespace Lexeme

/-- The numerals of a lexeme that names pins. -/
def pinNumerals : Lexeme → List (List Char)
  | .pin index => [index]
  | .pinRange first last => [first, last]
  | .pinRangeLength first count => [first, count]
  | _ => []

/-- The numbers that pins are computed from: those that are written, and the sum of a counted
range. -/
def pinNumbers : Lexeme → List Nat
  | .pin index => [positionalValue 10 index]
  | .pinRange first last => [positionalValue 10 first, positionalValue 10 last]
  | .pinRangeLength first count =>
      [positionalValue 10 first, positionalValue 10 count,
        positionalValue 10 first + positionalValue 10 count]
  | _ => []

def PinsFit (lexeme : Lexeme) : Prop :=
  ∀ number ∈ lexeme.pinNumbers, number ≤ 2 ^ 64 - 1

instance (lexeme : Lexeme) : Decidable lexeme.PinsFit :=
  List.decidableBAll (· ≤ 2 ^ 64 - 1) lexeme.pinNumbers

/-- The pins that a lexeme writes, however large its numbers are. -/
def writtenPins? : Lexeme → Option PinRange
  | .pin index => some ⟨positionalValue 10 index, positionalValue 10 index⟩
  | .pinRange first last => some ⟨positionalValue 10 first, positionalValue 10 last⟩
  | .pinRangeLength first count =>
      some ⟨positionalValue 10 first, positionalValue 10 first + positionalValue 10 count - 1⟩
  | _ => none

/-- The first numeral that is too large, or the whole text if only the sum is. -/
def excess (lexeme : Lexeme) : List Char :=
  (lexeme.pinNumerals.find? fun numeral =>
    decide (¬ positionalValue 10 numeral ≤ 2 ^ 64 - 1)).getD lexeme.text

end Lexeme

/-- A token is read as the range that it writes exactly if its numbers fit, and is refused
with what is too large otherwise. A counted range runs forward and has as many pins as it
says. -/
structure Token.DenotesPins (token : Token) (range : PinRange) : Prop where
  digits : ∀ numeral ∈ token.lexeme.pinNumerals, IsRun Char.isDigit numeral
  read : ∀ result, token.lexeme.readPinRange = .ok result ↔
    token.lexeme.PinsFit ∧ result = range
  refused : ¬ token.lexeme.PinsFit →
    token.lexeme.readPinRange = .error (.overflow (String.ofList token.lexeme.excess))
  counted : ∀ first count, token.lexeme = .pinRangeLength first count → token.lexeme.PinsFit →
    range.first ≤ range.last ∧ range.last < 2 ^ 64 - 1 ∧
      range.count = positionalValue 10 count

namespace Lexeme

variable {lexeme : Lexeme} {range : PinRange}

private theorem positionalValue_pos {digits : List Char} (run : IsRun Char.isDigit digits)
    (notZero : digits.head? ≠ some '0') : 0 < positionalValue 10 digits := by
  obtain ⟨digit, others, rfl, isDigit⟩ := run.first
  have least := digitValue_le_numeralValue 10 (by decide) digit others
  have apart : digit.toNat ≠ '0'.toNat := by
    intro same
    exact notZero (congrArg some (Char.toNat_inj.mp same))
  have atLeast : '0'.toNat ≤ digit.toNat := by
    simp only [Char.isDigit, Bool.and_eq_true, decide_eq_true_eq] at isDigit
    exact isDigit.1
  rw [numeralValue_of_digits run, digitValue_of_isDigit isDigit] at least
  omega

private theorem bind_readIndex {α : Type} {digits : List Char} (run : IsRun Char.isDigit digits)
    (next : Nat → Except ValueError α) :
    readIndex digits >>= next =
      if positionalValue 10 digits ≤ 2 ^ 64 - 1 then next (positionalValue 10 digits)
      else .error (.overflow (String.ofList digits)) := by
  have bound : positionalValue 10 digits < pinIndexBound ↔
      positionalValue 10 digits ≤ 2 ^ 64 - 1 := Nat.lt_iff_le_pred (by decide)
  rw [readIndex_of_digits run]
  simp only [bound]
  split <;> rfl

theorem readPinRange_of_fits (spelled : lexeme.WellSpelled)
    (written : lexeme.writtenPins? = some range) (fits : lexeme.PinsFit) :
    lexeme.readPinRange = .ok range := by
  cases lexeme with
  | pin index =>
      cases written
      obtain ⟨small, _none⟩ := List.forall_mem_cons.mp fits
      rw [readPinRange, bind_readIndex spelled, if_pos small]
      rfl
  | pinRange first last =>
      cases written
      obtain ⟨small, others⟩ := List.forall_mem_cons.mp fits
      obtain ⟨alsoSmall, _none⟩ := List.forall_mem_cons.mp others
      rw [readPinRange, bind_readIndex spelled.1, if_pos small, bind_readIndex spelled.2,
        if_pos alsoSmall]
      rfl
  | pinRangeLength first count =>
      cases written
      obtain ⟨small, others⟩ := List.forall_mem_cons.mp fits
      obtain ⟨alsoSmall, sum⟩ := List.forall_mem_cons.mp others
      have below := List.forall_mem_singleton.mp sum
      have positive := positionalValue_pos spelled.2.1 spelled.2.2
      have bounded : positionalValue 10 first + positionalValue 10 count < pinIndexBound ∧
          0 < positionalValue 10 first + positionalValue 10 count := by
        have bound : pinIndexBound = 2 ^ 64 := by decide
        omega
      rw [readPinRange, bind_readIndex spelled.1, if_pos small, bind_readIndex spelled.2.1,
        if_pos alsoSmall, if_pos bounded]
      rfl
  | _ => cases written

theorem readPinRange_of_not_fits (spelled : lexeme.WellSpelled)
    (written : lexeme.writtenPins? = some range) (large : ¬ lexeme.PinsFit) :
    lexeme.readPinRange = .error (.overflow (String.ofList lexeme.excess)) := by
  cases lexeme with
  | pin index =>
      simp only [PinsFit, pinNumbers, List.forall_mem_singleton] at large
      rw [readPinRange, bind_readIndex spelled, if_neg large]
      simp only [excess, pinNumerals, List.find?_cons, decide_eq_true large, Option.getD_some]
  | pinRange first last =>
      simp only [PinsFit, pinNumbers, List.forall_mem_cons, List.not_mem_nil, false_imp_iff,
        implies_true, and_true] at large
      simp only [readPinRange, bind_readIndex spelled.1, bind_readIndex spelled.2, excess,
        pinNumerals, List.find?_cons]
      by_cases small : positionalValue 10 first ≤ 2 ^ 64 - 1
      · have alsoLarge : ¬ positionalValue 10 last ≤ 2 ^ 64 - 1 := fun fits => large ⟨small, fits⟩
        simp only [if_pos small, if_neg alsoLarge, decide_eq_true alsoLarge,
          decide_eq_false (not_not.mpr small), Option.getD_some]
      · simp only [if_neg small, decide_eq_true small, Option.getD_some]
  | pinRangeLength first count =>
      simp only [PinsFit, pinNumbers, List.forall_mem_cons, List.not_mem_nil, false_imp_iff,
        implies_true, and_true] at large
      simp only [readPinRange, bind_readIndex spelled.1, bind_readIndex spelled.2.1, excess,
        pinNumerals, List.find?_cons]
      by_cases small : positionalValue 10 first ≤ 2 ^ 64 - 1
      · by_cases alsoSmall : positionalValue 10 count ≤ 2 ^ 64 - 1
        · -- Only the sum is left to be too large.
          have beyond : ¬ (positionalValue 10 first + positionalValue 10 count < pinIndexBound ∧
              0 < positionalValue 10 first + positionalValue 10 count) := by
            have bound : pinIndexBound = 2 ^ 64 := by decide
            omega
          simp only [if_pos small, if_pos alsoSmall, if_neg beyond,
            decide_eq_false (not_not.mpr small), decide_eq_false (not_not.mpr alsoSmall),
            List.find?_nil, Option.getD_none]
          rfl
        · simp only [if_pos small, if_neg alsoSmall, decide_eq_true alsoSmall,
            decide_eq_false (not_not.mpr small), Option.getD_some]
      · simp only [if_neg small, decide_eq_true small, Option.getD_some]
  | _ => cases written

private theorem counted_of_fits {first count : List Char}
    (spelled : (Lexeme.pinRangeLength first count).WellSpelled)
    (written : (Lexeme.pinRangeLength first count).writtenPins? = some range)
    (fits : (Lexeme.pinRangeLength first count).PinsFit) :
    range.first ≤ range.last ∧ range.last < 2 ^ 64 - 1 ∧
      range.count = positionalValue 10 count := by
  cases written
  have positive := positionalValue_pos spelled.2.1 spelled.2.2
  have sum : positionalValue 10 first + positionalValue 10 count ≤ 2 ^ 64 - 1 :=
    fits _ (List.mem_of_getElem? (i := 2) rfl)
  unfold PinRange.count
  dsimp only
  omega

end Lexeme

theorem Lexeme.WellSpelled.pinNumerals_digits {lexeme : Lexeme} (spelled : lexeme.WellSpelled) :
    ∀ numeral ∈ lexeme.pinNumerals, IsRun Char.isDigit numeral := by
  cases lexeme with
  | pin index => exact List.forall_mem_singleton.mpr spelled
  | pinRange first last =>
      exact List.forall_mem_cons.mpr ⟨spelled.1, List.forall_mem_singleton.mpr spelled.2⟩
  | pinRangeLength first count =>
      exact List.forall_mem_cons.mpr ⟨spelled.1, List.forall_mem_singleton.mpr spelled.2.1⟩
  | _ =>
      intro numeral member
      cases member

theorem Lexeme.WellSpelled.denotesPins {token : Token} {range : PinRange}
    (spelled : token.lexeme.WellSpelled) (written : token.lexeme.writtenPins? = some range) :
    token.DenotesPins range := by
  constructor
  case digits => exact spelled.pinNumerals_digits
  case read =>
    intro result
    by_cases fits : token.lexeme.PinsFit
    · rw [readPinRange_of_fits spelled written fits, Except.ok.injEq, eq_comm]
      exact (and_iff_right fits).symm
    · rw [readPinRange_of_not_fits spelled written fits]
      exact iff_of_false nofun fun accepted => fits accepted.1
  case refused => exact readPinRange_of_not_fits spelled written
  case counted =>
    intro first count shape fits
    rw [shape] at spelled written fits
    exact counted_of_fits spelled written fits

/-- The indices of a range are its pins in increasing order, and as many as it counts. The
number behind the last pin, from which they are counted, has 64 bits. -/
structure PinRange.Lists (range : PinRange) : Prop where
  member : ∀ index, index ∈ range.indices ↔ range.first ≤ index ∧ index ≤ range.last
  increasing : range.indices.Pairwise (· < ·)
  counted : range.count = range.indices.length
  reversed : range.last < range.first → range.count = 0
  unwrapped : (BitVec.ofNat 64 range.last + 1).toNat = range.last + 1

theorem PinRange.lists {range : PinRange} (bounded : range.last < 2 ^ 64 - 1) : range.Lists := by
  have covered : range.count = range.last + 1 - range.first := rfl
  constructor
  case member =>
    intro index
    rw [indices, List.mem_range'_1]
    omega
  case increasing => exact List.pairwise_lt_range' 1
  case counted => exact List.length_range'.symm
  case reversed =>
    intro reversed
    omega
  case unwrapped =>
    have one : (1 : BitVec 64).toNat = 1 := rfl
    have last : range.last % 2 ^ 64 = range.last := Nat.mod_eq_of_lt (by omega)
    have behind : (range.last + 1) % 2 ^ 64 = range.last + 1 := Nat.mod_eq_of_lt (by omega)
    rw [BitVec.toNat_add, BitVec.toNat_ofNat, one, last, behind]

/-! ### Shown ranges -/

/-- The lexeme that a range is shown as. -/
def PinRange.lexeme (range : PinRange) : Lexeme :=
  .pinRange (toString range.first).toList (toString range.last).toList

/-- The text that a range is shown by is one range lexeme, wherever it stands and whatever
follows it but a digit, and the lexeme denotes the range. In particular an instruction and
the text, with or without blanks between them, are read as a line with that argument. -/
structure PinRange.ReadsBack (range : PinRange) : Prop where
  lexes : ∀ (leading : Bool) (rest : List Char), Stops Char.isDigit rest →
    nextLexeme? leading (range.display.toList ++ rest) = some (range.lexeme, rest)
  reads : ∀ (mode : CommentMode) (word blanks : List Char), IsRun Char.isAlpha word →
    AreBlanks blanks →
    (Program.ofSource mode (.ofList (word ++ (blanks ++ range.display.toList)))).lines =
      [argumentLine word blanks range.lexeme]
  denotes : range.lexeme.readPinRange = .ok range

private theorem isRun_toString (number : Nat) :
    IsRun Char.isDigit (toString number).toList := by
  refine ⟨?_, isDigit_of_mem_toString number⟩
  rw [toString_toList]
  exact Nat.toDigits_ne_nil

theorem PinRange.lexeme_text (range : PinRange) : range.lexeme.text = range.display.toList := by
  simp [lexeme, Lexeme.text, display, String.toList_append]

theorem PinRange.readsBack {range : PinRange} (first : range.first ≤ 2 ^ 64 - 1)
    (last : range.last ≤ 2 ^ 64 - 1) : range.ReadsBack := by
  have spelled : range.lexeme.WellSpelled := ⟨isRun_toString _, isRun_toString _⟩
  constructor
  case lexes =>
    intro leading rest stops
    rw [← range.lexeme_text]
    exact nextLexeme?_of_plain leading range.lexeme spelled stops nofun ⟨nofun, nofun, nofun⟩
  case reads =>
    intro mode word blanks isWord areBlanks
    have apart : Stops Char.isAlpha (blanks ++ range.lexeme.text) :=
      stops_behind_word areBlanks (by decide) _
    rw [← range.lexeme_text]
    exact Program.ofSource_argumentLine mode isWord areBlanks spelled nofun nofun rfl apart
  case denotes =>
    have bound : pinIndexBound = 2 ^ 64 := by decide
    apply (Lexeme.readPinRange_pinRange_iff _ _ range).mpr
    simp only [IsIndex, numeralValue_toString, and_true]
    omega

theorem Token.exists_writtenPins? (token : Token) (isPin : token.kind.isPin = true) :
    ∃ range, token.lexeme.writtenPins? = some range := by
  obtain ⟨lexeme, line, column⟩ := token
  cases lexeme with
  | pin index => exact ⟨_, rfl⟩
  | pinRange first last => exact ⟨_, rfl⟩
  | pinRangeLength first count => exact ⟨_, rfl⟩
  | _ => cases isPin

/-- Pin ranges denote what is written. A token of a source that names pins is read as the
range that it writes if its numbers have 64 bits, and is refused otherwise. A range whose
last pin is not the largest number of 64 bits lists as many pins as it counts. The text that
a range is shown by is read back as the range. -/
theorem Program.pin_ranges_denote_what_is_written :
    (∀ (mode : CommentMode) (source : String), ∀ line ∈ (Program.ofSource mode source).lines,
      ∀ token ∈ line.tokens, token.kind.isPin = true →
        ∃ range, token.lexeme.writtenPins? = some range ∧ token.DenotesPins range) ∧
      (∀ range : PinRange, range.last < 2 ^ 64 - 1 → range.Lists) ∧
      ∀ range : PinRange, range.first ≤ 2 ^ 64 - 1 → range.last ≤ 2 ^ 64 - 1 →
        range.ReadsBack := by
  refine ⟨?_, fun range => PinRange.lists, fun range => PinRange.readsBack⟩
  intro mode source line inProgram token inLine isPin
  obtain ⟨range, written⟩ := token.exists_writtenPins? isPin
  have spelled := (Program.scans_of_mem mode source line inProgram).wellSpelled token inLine
  exact ⟨range, written, spelled.denotesPins written⟩

/-- The sum of a counted range may be the largest number of 64 bits, but not the one after it.
A range that runs backward lists nothing, and one from the largest pin is read back. -/
theorem Program.pin_ranges_denote_what_is_written_at_bound :
    ∃ line ∈ (Program.ofSource .skip
        "clp .p18446744073709551614:1 .p18446744073709551614:2").lines,
      (∃ token ∈ line.tokens, token.kind = .pinRangeLength ∧
        token.lexeme.readPinRange = .ok ⟨2 ^ 64 - 2, 2 ^ 64 - 2⟩) ∧
      (∃ token ∈ line.tokens, token.kind = .pinRangeLength ∧
        token.lexeme.readPinRange = .error (.overflow ".p18446744073709551614:2")) ∧
      (⟨9, 2⟩ : PinRange).Lists ∧ (⟨2 ^ 64 - 1, 0⟩ : PinRange).ReadsBack := by
  let source := "clp .p18446744073709551614:1 .p18446744073709551614:2"
  let line := Line.ofText .skip 0 0 source.toList
  let fits : Token := ⟨.pinRangeLength "18446744073709551614".toList ['1'], 0, 4⟩
  let large : Token := ⟨.pinRangeLength "18446744073709551614".toList ['2'], 0, 29⟩
  have inProgram : line ∈ (Program.ofSource .skip source).lines := by decide +kernel
  have inLine : fits ∈ line.tokens ∧ large ∈ line.tokens := by decide +kernel
  obtain ⟨tokens, lists, readsBack⟩ := Program.pin_ranges_denote_what_is_written
  obtain ⟨range, written, denotes⟩ := tokens .skip source line inProgram fits inLine.1 rfl
  obtain ⟨_beyond, _alsoWritten, denied⟩ := tokens .skip source line inProgram large inLine.2 rfl
  have meant : fits.lexeme.writtenPins? = some ⟨2 ^ 64 - 2, 2 ^ 64 - 2⟩ := by decide +kernel
  have read := (denotes.read range).mpr ⟨by decide +kernel, rfl⟩
  rw [Option.some.inj (written.symm.trans meant)] at read
  have refused := denied.refused (by decide +kernel)
  exact ⟨line, inProgram, ⟨fits, inLine.1, rfl, read⟩, ⟨large, inLine.2, rfl, refused⟩,
    lists _ (by decide), readsBack _ (by decide) (by decide)⟩

end PinMachine
