import Mathlib.Data.Nat.Digits.Defs
import PinMachine.Proofs.Program.Scan
import PinMachine.Proofs.Token.Value

/-!
What literals mean. A digit has a value by its place in the table of digits, and a numeral
is worth the sum of its digits, each times the power of the base that belongs to its
position. The tokens of a source hold digits of their base only, so a constant or a pin is
read as the number that is written, however long it is, and is refused only if that number
is too large.
-/

namespace PinMachine

/-- The digits of the bases up to sixteen, each at the place of its value. -/
def digitTable : List Char :=
  ['0', '1', '2', '3', '4', '5', '6', '7', '8', '9', 'a', 'b', 'c', 'd', 'e', 'f']

def tableValue (char : Char) : Nat :=
  digitTable.idxOf char.toLower

/-- The number that a numeral writes, most significant digit first. Underscores have no
position. -/
def positionalValue (base : Nat) (numeral : List Char) : Nat :=
  Nat.ofDigits base ((numeral.filter (· != '_')).map tableValue).reverse

theorem numeralValue_eq_ofDigits (base : Nat) (digits : List Char) :
    numeralValue base digits = Nat.ofDigits base (digits.map digitValue).reverse := by
  have step : (fun total digit => total * base + digitValue digit) =
      fun total digit => digitValue digit + base * total := by
    funext total digit
    rw [Nat.add_comm, Nat.mul_comm]
  unfold numeralValue
  rw [step, Nat.ofDigits_eq_foldr, List.foldr_reverse, List.foldl_map]
  rfl

private theorem toNat_lt_of_isHexDigit {char : Char} (digit : isHexDigit char = true) :
    char.toNat < 128 := by
  simp only [isHexDigit, Char.isDigit, Bool.or_eq_true, Bool.and_eq_true, decide_eq_true_eq,
    Char.le_def, UInt32.le_iff_toNat_le] at digit
  have nine : '9'.val.toNat = 57 := rfl
  have upper : 'F'.val.toNat = 70 := rfl
  have lower : 'f'.val.toNat = 102 := rfl
  change char.val.toNat < 128
  rcases digit with (decimal | small) | large
  · have below : char.val.toNat ≤ '9'.val.toNat := decimal.2
    omega
  · omega
  · omega

/-- Digits are valued by their place in the table, in either case. -/
theorem digitValue_eq_tableValue {char : Char} (digit : isHexDigit char = true) :
    digitValue char = tableValue char ∧ tableValue char < 16 := by
  have all : ∀ code < 128, isHexDigit (Char.ofNat code) = true →
      digitValue (Char.ofNat code) = tableValue (Char.ofNat code) ∧
        tableValue (Char.ofNat code) < 16 := by decide +kernel
  have here := all char.toNat (toNat_lt_of_isHexDigit digit)
  rw [Char.ofNat_toNat] at here
  exact here digit

theorem isHexDigit_of_isDigit {char : Char} (digit : char.isDigit = true) :
    isHexDigit char = true := by
  unfold isHexDigit
  rw [digit]
  rfl

theorem tableValue_lt_of_isDigit {char : Char} (digit : char.isDigit = true) :
    tableValue char < 10 := by
  have all : ∀ code < 128, (Char.ofNat code).isDigit = true →
      tableValue (Char.ofNat code) < 10 := by decide +kernel
  have here := all char.toNat (toNat_lt_of_isHexDigit (isHexDigit_of_isDigit digit))
  rw [Char.ofNat_toNat] at here
  exact here digit

theorem numeralValue_eq_positionalValue (base : Nat) (numeral : List Char)
    (digits : ∀ char ∈ numeral, char ≠ '_' → isHexDigit char = true) :
    numeralValue base (numeral.filter (· != '_')) = positionalValue base numeral := by
  unfold positionalValue
  rw [numeralValue_eq_ofDigits]
  congr 2
  apply List.map_congr_left
  intro char member
  obtain ⟨inNumeral, notUnderscore⟩ := List.mem_filter.mp member
  exact (digitValue_eq_tableValue (digits char inNumeral (by simpa using notUnderscore))).1

/-- The base in which the constants of a kind are written. -/
def TokenKind.base? : TokenKind → Option Nat
  | .binary => some 2
  | .hex => some 16
  | .integer => some 10
  | _ => none

/-- The text of a token behind the fixed characters at the start of its kind. -/
def Token.numeral (token : Token) : List Char :=
  token.text.drop token.kind.opening.length

/-- The token is read as the number that it writes in a base, or refused with its text if
that number is too large for a word. -/
structure Token.MeansConstant (token : Token) (base : Nat) : Prop where
  digits : ∀ char ∈ token.numeral, char = '_' ∨ tableValue char < base
  read : token.lexeme.readConstant.map BitVec.toNat =
    if positionalValue base token.numeral ≤ 65535 then
      .ok (positionalValue base token.numeral)
    else .error (.overflow (String.ofList token.text))

/-- The digits of a literal belong to its base. -/
structure Token.WritesNumeral (token : Token) (base : Nat) : Prop where
  digits : ∀ char ∈ token.numeral, char = '_' ∨ isHexDigit char = true ∧ tableValue char < base
  numeral : token.lexeme.numeral? = some (base, token.numeral.filter (· != '_'))

private theorem filter_underscores {class? : Char → Bool} {numeral : List Char}
    (inside : ∀ char ∈ numeral, class? char = true) (outside : class? '_' = false) :
    numeral.filter (· != '_') = numeral := by
  rw [List.filter_eq_self]
  intro char member
  rw [bne_iff_ne]
  rintro rfl
  rw [inside '_' member] at outside
  cases outside

theorem Lexeme.WellSpelled.writesNumeral {token : Token} (spelled : token.lexeme.WellSpelled)
    {base : Nat} (constant : token.kind.base? = some base) : token.WritesNumeral base := by
  obtain ⟨lexeme, line, column⟩ := token
  cases lexeme with
  | binary digits =>
      cases constant
      refine ⟨?_, rfl⟩
      intro char member
      have either := spelled.1 char member
      simp only [isBinaryChar, Bool.or_eq_true, beq_iff_eq] at either
      rcases either with (rfl | rfl) | rfl
      · exact Or.inr (by decide)
      · exact Or.inr (by decide)
      · exact Or.inl rfl
  | hex digits =>
      cases constant
      refine ⟨?_, ?_⟩
      · intro char member
        have digit := spelled.2 char member
        exact Or.inr ⟨digit, (digitValue_eq_tableValue digit).2⟩
      · exact congrArg (fun kept => some (16, kept))
          (filter_underscores spelled.2 (by decide)).symm
  | integer digits =>
      cases constant
      refine ⟨?_, ?_⟩
      · intro char member
        have digit := spelled.2 char member
        exact Or.inr ⟨isHexDigit_of_isDigit digit, tableValue_lt_of_isDigit digit⟩
      · exact congrArg (fun kept => some (10, kept))
          (filter_underscores spelled.2 (by decide)).symm
  | _ => cases constant

theorem Lexeme.readConstant_map_toNat (lexeme : Lexeme) (base : Nat) (digits : List Char)
    (numeral : lexeme.numeral? = some (base, digits)) :
    lexeme.readConstant.map BitVec.toNat =
      if numeralValue base digits ≤ maxWord then .ok (numeralValue base digits)
      else .error (.overflow (String.ofList lexeme.text)) := by
  rw [lexeme.readConstant_eq base digits numeral]
  by_cases fits : numeralValue base digits ≤ maxWord
  · have small : numeralValue base digits < 2 ^ 16 := Nat.lt_succ_of_le fits
    rw [if_pos fits, if_pos fits]
    change Except.ok (BitVec.ofNat 16 (numeralValue base digits)).toNat = _
    rw [BitVec.toNat_ofNat, Nat.mod_eq_of_lt small]
  · rw [if_neg fits, if_neg fits]
    rfl

theorem Token.WritesNumeral.meansConstant {token : Token} {base : Nat}
    (writes : token.WritesNumeral base) : token.MeansConstant base := by
  have value : numeralValue base (token.numeral.filter (· != '_')) =
      positionalValue base token.numeral := by
    apply numeralValue_eq_positionalValue
    intro char member notUnderscore
    exact ((writes.digits char member).resolve_left notUnderscore).1
  constructor
  · intro char member
    exact (writes.digits char member).imp id And.right
  · rw [Lexeme.readConstant_map_toNat _ base _ writes.numeral, value]
    rfl

theorem Lexeme.readConstant_of_base?_eq_none (lexeme : Lexeme)
    (other : lexeme.kind.base? = none) :
    lexeme.readConstant = .error (.invalidKind "constant" lexeme.kind) := by
  cases lexeme with
  | binary digits => cases other
  | hex digits => cases other
  | integer digits => cases other
  | _ => rfl

theorem numeralValue_of_digits {digits : List Char} (run : IsRun Char.isDigit digits) :
    numeralValue 10 digits = positionalValue 10 digits := by
  have value := numeralValue_eq_positionalValue 10 digits
    fun char member _notUnderscore => isHexDigit_of_isDigit (run.2 char member)
  rw [filter_underscores run.2 (by decide)] at value
  exact value

theorem Lexeme.readIndex_of_digits {digits : List Char} (run : IsRun Char.isDigit digits) :
    readIndex digits =
      if positionalValue 10 digits < pinIndexBound then .ok (positionalValue 10 digits)
      else .error (.overflow (String.ofList digits)) := by
  rw [readIndex_eq, numeralValue_of_digits run]

/-- Literals mean their value. A constant of a source is read as the number that it writes
in its base, and is refused with its whole text if the number does not fit a word; tokens of
other kinds are no constants. A pin is read as the decimal number that it writes, if that is
below 2^64. -/
theorem Program.literals_mean_their_value (mode : CommentMode) (source : String) (line : Line)
    (inProgram : line ∈ (Program.ofSource mode source).lines) (token : Token)
    (inLine : token ∈ line.tokens) :
    (∀ base, token.kind.base? = some base → token.MeansConstant base) ∧
      (token.kind.base? = none →
        token.lexeme.readConstant = .error (.invalidKind "constant" token.kind)) ∧
      (token.kind = .pin →
        token.lexeme.readPinIndex =
          if positionalValue 10 token.numeral ≤ 2 ^ 64 - 1 then
            .ok (positionalValue 10 token.numeral)
          else .error (.overflow (String.ofList token.numeral))) := by
  have spelled := (Program.scans_of_mem mode source line inProgram).wellSpelled token inLine
  refine ⟨?_, token.lexeme.readConstant_of_base?_eq_none, ?_⟩
  · intro base constant
    exact (spelled.writesNumeral constant).meansConstant
  · intro isPin
    obtain ⟨lexeme, place, column⟩ := token
    obtain ⟨index, rfl⟩ : ∃ index, lexeme = .pin index := by
      cases lexeme <;> cases isPin
      exact ⟨_, rfl⟩
    have bound : ∀ number, number < pinIndexBound ↔ number ≤ 2 ^ 64 - 1 := by
      intro number
      exact Nat.lt_iff_le_pred (by decide)
    have read := Lexeme.readIndex_of_digits spelled
    simp only [bound] at read
    exact read

/-- The largest word in binary, with a zero and underscores, and the number after it in
hexadecimal, with leading zeros. -/
theorem Program.literals_mean_their_value_at_bound :
    ∃ line ∈ (Program.ofSource .skip "add 0b0_1111_1111_1111_1111 0x0010000").lines,
      (∃ token ∈ line.tokens, token.kind = .binary ∧
        token.lexeme.readConstant.map BitVec.toNat = .ok 65535) ∧
      ∃ token ∈ line.tokens, token.kind = .hex ∧
        token.lexeme.readConstant.map BitVec.toNat = .error (.overflow "0x0010000") := by
  let source := "add 0b0_1111_1111_1111_1111 0x0010000"
  let line := Line.ofText .skip 0 0 source.toList
  let largest : Token := ⟨.binary "0_1111_1111_1111_1111".toList, 0, 4⟩
  let next : Token := ⟨.hex "0010000".toList, 0, 28⟩
  have inProgram : line ∈ (Program.ofSource .skip source).lines := by decide +kernel
  have inLine : largest ∈ line.tokens ∧ next ∈ line.tokens := by decide +kernel
  have binary : positionalValue 2 largest.numeral = 65535 := by decide +kernel
  have hex : positionalValue 16 next.numeral = 65536 := by decide +kernel
  have read := ((Program.literals_mean_their_value .skip source line inProgram largest
    inLine.1).1 2 rfl).read
  have refused := ((Program.literals_mean_their_value .skip source line inProgram next
    inLine.2).1 16 rfl).read
  rw [binary] at read
  rw [hex] at refused
  exact ⟨line, inProgram, ⟨largest, inLine.1, rfl, read⟩, ⟨next, inLine.2, rfl, refused⟩⟩

end PinMachine
