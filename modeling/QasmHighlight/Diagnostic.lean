import QasmHighlight.Text.Position
import QasmHighlight.Text.Quoted

/-!
# Diagnostics

Malformed source text is never refused.  What is wrong with it is reported as
a list of problems with their positions.
-/

namespace QasmHighlight

open Text

inductive Problem where
  | unterminatedString
  | unterminatedBlockComment
  | unexpectedCharacter (c : Char)
  deriving DecidableEq

/-- A problem and where it begins. -/
structure Diagnostic where
  problem : Problem
  position : Position
  deriving DecidableEq

def Problem.message : Problem → String
  | .unterminatedString => "unterminated string literal"
  | .unterminatedBlockComment => "unterminated block comment"
  | .unexpectedCharacter c => "unexpected character " ++ quoted c

/-- The wording of a diagnostic, with its line and column. -/
def Diagnostic.message (diagnostic : Diagnostic) : String :=
  diagnostic.problem.message ++ " at " ++ toString diagnostic.position.line ++ ":" ++
    toString diagnostic.position.column

end QasmHighlight
