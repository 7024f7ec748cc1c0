import PinMachine.Text.Spelled

/-!
Quoted literals. A text is shown between double quotes on one line: the quote,
the backslash and four control characters have a short escape, a character that
would not show by itself is spelled by its number, and all others stand as they
are.
-/

namespace PinMachine

/-- The digits of a number in base sixteen, lower case and without padding. -/
def hexDigits (number : Nat) : List Char :=
  Nat.toDigits 16 number

/-- One character as it stands inside a quoted literal. -/
def escapeChar (char : Char) : List Char :=
  match char with
  | '\x00' => ['\\', '0']
  | '\t' => ['\\', 't']
  | '\r' => ['\\', 'r']
  | '\n' => ['\\', 'n']
  | '\\' => ['\\', '\\']
  | '"' => ['\\', '"']
  | _ =>
      if isSpelled char then
        ['\\', 'u', '\x7b'] ++ hexDigits char.toNat ++ ['\x7d']
      else [char]

def quote (text : List Char) : String :=
  String.ofList ('"' :: text.flatMap escapeChar ++ ['"'])

end PinMachine
