import PinMachine.Text.Numeral

/-!
Numerals. Reading digits stops at the first one that reaches a bound. Further digits
never make a number smaller, so a numeral is read exactly if the number that it denotes
is below the bound, and then it is read as that number. A number is written with digits
only.
-/

namespace PinMachine

theorem toString_toList (number : Nat) : (toString number).toList = Nat.toDigits 10 number := by
  simp [ToString.toString, Nat.repr]

theorem isDigit_of_mem_toString (number : Nat) (char : Char)
    (member : char ∈ (toString number).toList) : char.isDigit = true := by
  rw [toString_toList] at member
  exact Nat.isDigit_of_mem_toDigits (b := 10) (n := number) (by decide) (by decide) member

theorem digitValue_of_isDigit {char : Char} (digit : char.isDigit = true) :
    digitValue char = char.toNat - '0'.toNat := by
  unfold digitValue
  rw [if_pos digit]

private theorem foldl_digits (digits : List Char)
    (inside : ∀ char ∈ digits, char.isDigit = true) (start : Nat) :
    digits.foldl (fun total digit => total * 10 + digitValue digit) start =
      Nat.ofDigitChars 10 digits start := by
  induction digits generalizing start with
  | nil => rfl
  | cons digit rest ih =>
      obtain ⟨first, later⟩ := List.forall_mem_cons.mp inside
      rw [List.foldl_cons, Nat.ofDigitChars_cons, ih later, digitValue_of_isDigit first,
        Nat.mul_comm]

theorem numeralValue_toString (number : Nat) :
    numeralValue 10 (toString number).toList = number := by
  unfold numeralValue
  rw [foldl_digits _ (isDigit_of_mem_toString number), toString_toList]
  exact Nat.ofDigitChars_toDigits (by decide) (by decide)

private theorem foldl_extendBelow?_none (base bound : Nat) (digits : List Char) :
    digits.foldl (extendBelow? base bound) none = none := by
  induction digits with
  | nil => rfl
  | cons digit rest ih => exact ih

private theorem foldl_extendBelow? (base bound : Nat) (digits : List Char)
    (start number : Nat) (below : start < bound)
    (read : digits.foldl (extendBelow? base bound) (some start) = some number) :
    digits.foldl (fun total digit => total * base + digitValue digit) start = number ∧
      number < bound := by
  induction digits generalizing start with
  | nil =>
      cases read
      exact ⟨rfl, below⟩
  | cons digit rest ih =>
      rw [List.foldl_cons] at read
      by_cases extends_below : start * base + digitValue digit < bound
      · simp only [extendBelow?, if_pos extends_below] at read
        exact ih _ extends_below read
      · -- A number that is too large once is not read, whatever follows.
        simp only [extendBelow?, if_neg extends_below, foldl_extendBelow?_none] at read
        cases read

theorem numeralValue_of_numeralBelow? (base bound : Nat) (digits : List Char)
    (number : Nat) (read : numeralBelow? base bound digits = some number) :
    numeralValue base digits = number ∧ number < bound := by
  unfold numeralBelow? at read
  by_cases positive : 0 < bound
  · rw [if_pos positive] at read
    exact foldl_extendBelow? base bound digits 0 number positive read
  · rw [if_neg positive, foldl_extendBelow?_none] at read
    cases read

private theorem le_foldl_digits (base : Nat) (positive : 0 < base) (digits : List Char)
    (start : Nat) :
    start ≤ digits.foldl (fun total digit => total * base + digitValue digit) start := by
  induction digits generalizing start with
  | nil => exact Nat.le_refl start
  | cons digit rest ih =>
      have grows : start ≤ start * base := Nat.le_mul_of_pos_right start positive
      have later := ih (start * base + digitValue digit)
      rw [List.foldl_cons]
      omega

theorem digitValue_le_numeralValue (base : Nat) (positive : 0 < base) (digit : Char)
    (rest : List Char) : digitValue digit ≤ numeralValue base (digit :: rest) := by
  have grows := le_foldl_digits base positive rest (0 * base + digitValue digit)
  rw [Nat.zero_mul, Nat.zero_add] at grows
  unfold numeralValue
  rw [List.foldl_cons, Nat.zero_mul, Nat.zero_add]
  exact grows

private theorem foldl_extendBelow?_of_lt (base bound : Nat) (positive : 0 < base)
    (digits : List Char) (start : Nat)
    (small : digits.foldl (fun total digit => total * base + digitValue digit) start < bound) :
    digits.foldl (extendBelow? base bound) (some start) =
      some (digits.foldl (fun total digit => total * base + digitValue digit) start) := by
  induction digits generalizing start with
  | nil => rfl
  | cons digit rest ih =>
      rw [List.foldl_cons] at small
      -- The number read so far is at most the whole one.
      have early := le_foldl_digits base positive rest (start * base + digitValue digit)
      have extends_below : start * base + digitValue digit < bound := by omega
      rw [List.foldl_cons, List.foldl_cons]
      simp only [extendBelow?, if_pos extends_below]
      exact ih _ small

theorem numeralBelow?_eq (base bound : Nat) (positive : 0 < base) (digits : List Char) :
    numeralBelow? base bound digits =
      if numeralValue base digits < bound then some (numeralValue base digits) else none := by
  by_cases small : numeralValue base digits < bound
  · have room : 0 < bound := by omega
    rw [if_pos small]
    unfold numeralBelow?
    rw [if_pos room]
    exact foldl_extendBelow?_of_lt base bound positive digits 0 small
  · rw [if_neg small]
    cases read : numeralBelow? base bound digits with
    | none => rfl
    | some number =>
        obtain ⟨rfl, below⟩ := numeralValue_of_numeralBelow? base bound digits number read
        exact False.elim (small below)

end PinMachine
