import LinearArith.Error
import LinearArith.Rational

/-! Tokens of the problem language. -/

namespace LinearArith

inductive TokenKind where
  | leftParen
  | rightParen
  | number (q : Rat)
  | symbol (name : String)
  | eof
  deriving DecidableEq, Repr

structure Token where
  kind : TokenKind
  lexeme : String
  position : Position
  deriving DecidableEq, Repr

/-- What an error message calls a token. -/
def TokenKind.text : TokenKind → String
  | leftParen => "`(`"
  | rightParen => "`)`"
  | number q => "number `" ++ ratText q ++ "`"
  | symbol name => "`" ++ name ++ "`"
  | eof => "end of file"

end LinearArith
