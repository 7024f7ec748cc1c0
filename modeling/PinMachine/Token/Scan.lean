import PinMachine.Text.Numeral
import PinMachine.Token.Lexeme

/-!
The token patterns. Each kind has one pattern, which looks at the front of a
text and either finds nothing or splits the text into a nonempty lexeme and the
rest. The text of the lexeme and the rest together are always the whole text.
-/

namespace PinMachine

/-- The leading run of characters of a class, if it is not empty. -/
def takeRun? (class? : Char → Bool) (text : List Char) :
    Option (List Char × List Char) :=
  match text.takeWhile class? with
  | [] => none
  | first :: others => some (first :: others, text.dropWhile class?)

/-- Characters of a name after its first letter. -/
def isNameChar (char : Char) : Bool :=
  char.isAlphanum || char == '_'

/-- A letter and at least one more name character. -/
def takeIdentifier? : List Char → Option (List Char × List Char)
  | [] => none
  | first :: others =>
      if first.isAlpha then
        (takeRun? isNameChar others).map fun found => (first :: found.1, found.2)
      else none

/-- The digits after `.p`. -/
def takePinIndex? : List Char → Option (List Char × List Char)
  | '.' :: 'p' :: rest => takeRun? Char.isDigit rest
  | _ => none

/-- The longest leading run of binary digits and underscores that neither starts
nor ends with an underscore. -/
def takeBinaryDigits? (text : List Char) : Option (List Char × List Char) :=
  match text with
  | '0' :: _ | '1' :: _ =>
      let run := text.takeWhile isBinaryChar
      let digits := (run.reverse.dropWhile (· == '_')).reverse
      some (digits, text.drop digits.length)
  | _ => none

def TokenKind.scan? (kind : TokenKind) (text : List Char) :
    Option (Lexeme × List Char) :=
  match kind with
  | .label =>
      match text with
      | ':' :: rest =>
          (takeIdentifier? rest).map fun found => (.label found.1, found.2)
      | _ => none
  | .instruction =>
      (takeRun? Char.isAlpha text).map fun found => (.instruction found.1, found.2)
  | .register =>
      match text with
      | '$' :: rest =>
          (takeRun? Char.isAlphanum rest).map fun found =>
            (.register found.1, found.2)
      | _ => none
  | .labelArgument =>
      (takeIdentifier? text).map fun found => (.labelArgument found.1, found.2)
  | .pinRange =>
      match takePinIndex? text with
      | some (first, '.' :: '.' :: 'p' :: rest) =>
          (takeRun? Char.isDigit rest).map fun found =>
            (.pinRange first found.1, found.2)
      | _ => none
  | .pinRangeLength =>
      match takePinIndex? text with
      | some (first, ':' :: rest) =>
          if rest.head? == some '0' then none
          else (takeRun? Char.isDigit rest).map fun found =>
            (.pinRangeLength first found.1, found.2)
      | _ => none
  | .pin =>
      (takePinIndex? text).map fun found => (.pin found.1, found.2)
  | .binary =>
      match text with
      | '0' :: 'b' :: rest =>
          (takeBinaryDigits? rest).map fun found => (.binary found.1, found.2)
      | _ => none
  | .hex =>
      match text with
      | '0' :: 'x' :: rest =>
          (takeRun? isHexDigit rest).map fun found => (.hex found.1, found.2)
      | _ => none
  | .integer =>
      (takeRun? Char.isDigit text).map fun found => (.integer found.1, found.2)
  | .whitespace =>
      (takeRun? (fun char => char == ' ' || char == '\t') text).map fun found =>
        (.whitespace found.1, found.2)
  | .comment =>
      match text with
      | ';' :: _ | '#' :: _ => some (.comment text, [])
      | _ => none

/-- The lexeme at the front of a text: the first kind whose pattern matches, in
order of priority. Kinds that lead a line are tried only where a line starts. -/
def nextLexeme? (leading : Bool) (text : List Char) :
    Option (Lexeme × List Char) :=
  TokenKind.all.findSome? fun kind =>
    if kind.leadsLine && !leading then none else kind.scan? text

end PinMachine
