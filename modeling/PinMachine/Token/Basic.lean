import PinMachine.Text.Quoted
import PinMachine.Token.Lexeme

/-!
Tokens: lexemes with their place in the source. Lines and columns count from
zero, columns count characters, and the end column is that of the last
character of the token.
-/

namespace PinMachine

/-- A lexeme and the place of its first character. -/
structure Token where
  lexeme : Lexeme
  line : Nat
  startColumn : Nat
  deriving DecidableEq, Repr

namespace Token

def kind (token : Token) : TokenKind :=
  token.lexeme.kind

def text (token : Token) : List Char :=
  token.lexeme.text

def endColumn (token : Token) : Nat :=
  token.startColumn + token.text.length - 1

def isComment (token : Token) : Bool :=
  token.kind == .comment

def display (token : Token) : String :=
  token.kind.name ++ "(" ++ quote token.text ++ ") @ " ++ toString token.line ++
    ":" ++ toString token.startColumn ++ "-" ++ toString token.endColumn

end Token

end PinMachine
