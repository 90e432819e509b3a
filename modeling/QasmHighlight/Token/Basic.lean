import QasmHighlight.Lexeme.Basic
import QasmHighlight.Token.Class

/-!
# Tokens

A token is a lexeme with its class.  Tokens that come from the wire have no
content: the text of a token never travels.
-/

namespace QasmHighlight

open Text

/-- A classified stretch of source text on one line. -/
structure Token where
  tokenClass : TokenClass
  content : String
  position : Position
  length : Nat
  deriving DecidableEq

def Lexeme.toToken (lexeme : Lexeme) (tokenClass : TokenClass) : Token :=
  ⟨tokenClass, lexeme.text, lexeme.position, lexeme.length⟩

/-- The token without its content. -/
def Token.bare (token : Token) : Token :=
  { token with content := "" }

end QasmHighlight
