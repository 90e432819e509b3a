import QasmHighlight.Json.Basic
import QasmHighlight.Token.Basic

/-!
# Tokens as JSON

The form in which a log shows tokens with their contents.
-/

namespace QasmHighlight

def Token.toJson (token : Token) : Json :=
  .object
    [("type_name", .string token.tokenClass.name),
     ("content", .string token.content),
     ("line", .nat token.position.line),
     ("column", .nat token.position.column),
     ("length", .nat token.length)]

/-- The text of a list of tokens in a log. -/
def dump (tokens : List Token) : String :=
  (Json.array (tokens.map Token.toJson)).render

end QasmHighlight
