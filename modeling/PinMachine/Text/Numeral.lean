/-!
Digits and positional numerals. The classes know ASCII characters only, which
is all that the token grammar admits in a numeral or a name.
-/

namespace PinMachine

/-- Decimal digits and the letters `a` to `f` in either case. -/
def isHexDigit (char : Char) : Bool :=
  char.isDigit || ('a' ≤ char && char ≤ 'f') || ('A' ≤ char && char ≤ 'F')

/-- The characters of a binary numeral: the two digits and the separator. -/
def isBinaryChar (char : Char) : Bool :=
  char == '0' || char == '1' || char == '_'

/-- The value of one digit. Letters count from ten in either case; a character
that is no digit counts as zero. -/
def digitValue (char : Char) : Nat :=
  if char.isDigit then char.toNat - '0'.toNat
  else if 'a' ≤ char ∧ char ≤ 'f' then char.toNat - 'a'.toNat + 10
  else if 'A' ≤ char ∧ char ≤ 'F' then char.toNat - 'A'.toNat + 10
  else 0

/-- The number that a list of digits denotes, most significant digit first. -/
def numeralValue (base : Nat) (digits : List Char) : Nat :=
  digits.foldl (fun total digit => total * base + digitValue digit) 0

/-- One more digit of a number that has to stay below a bound. -/
def extendBelow? (base bound : Nat) (total : Option Nat) (digit : Char) : Option Nat :=
  match total with
  | none => none
  | some number =>
      let extended := number * base + digitValue digit
      if extended < bound then some extended else none

/-- The number that digits denote, if it is below a bound. Reading stops being a
matter of size at the first digit that reaches the bound. -/
def numeralBelow? (base bound : Nat) (digits : List Char) : Option Nat :=
  digits.foldl (extendBelow? base bound) (if 0 < bound then some 0 else none)

end PinMachine
