/-!
# Operators

The operators of the language, longer ones first, so that the first one that
begins a text is the longest one that does.
-/

namespace QasmHighlight
namespace Lexeme

/-- The operators, longer ones first. -/
def operators : List (List Char) :=
  ["**=", "<<=", ">>=",
   "**", "==", "!=", "<=", ">=", "&&", "||", "<<", ">>", "->", "=>",
   "+=", "-=", "*=", "/=", "%=", "&=", "|=", "^=", "~=",
   "+", "-", "*", "/", "%", "=", "<", ">", "!", "&", "|", "^", "~", "@"].map String.toList

def leadingOperator? (text : List Char) : Option (List Char) :=
  operators.find? (·.isPrefixOf text)

end Lexeme
end QasmHighlight
