import QasmHighlight.Text.Position

/-!
# Lexemes

A lexeme is a stretch of source text on one line with its lexical kind, its
start and its UTF-16 length.  Kinds are decided by the spelling alone; what a
word stands for is decided later, from the lexemes around it.
-/

namespace QasmHighlight

open Text

inductive Punctuation where
  | openParen
  | closeParen
  | openBracket
  | closeBracket
  | openBrace
  | closeBrace
  | semicolon
  | comma
  | colon
  | dot
  deriving DecidableEq

def Punctuation.ofChar? (c : Char) : Option Punctuation :=
  match c with
  | '(' => some .openParen
  | ')' => some .closeParen
  | '[' => some .openBracket
  | ']' => some .closeBracket
  | '\x7b' => some .openBrace
  | '\x7d' => some .closeBrace
  | ';' => some .semicolon
  | ',' => some .comma
  | ':' => some .colon
  | '.' => some .dot
  | _ => none

inductive LexemeKind where
  | comment
  | string
  /-- A string that the end of its line cuts short. -/
  | unterminatedString
  | number
  /-- A name or reserved word, with the `#` of a directive. -/
  | word
  | hardwareQubit
  | operator
  | punctuation (mark : Punctuation)
  deriving DecidableEq

/-- A stretch of source text on one line. -/
structure Lexeme where
  kind : LexemeKind
  text : String
  position : Position
  length : Nat
  deriving DecidableEq

def Lexeme.ofChars (kind : LexemeKind) (chars : List Char) (position : Position) : Lexeme :=
  ⟨kind, String.ofList chars, position, units chars⟩

/-- Comments have no bearing on what other lexemes stand for. -/
def Lexeme.isComment (lexeme : Lexeme) : Bool :=
  lexeme.kind = .comment

end QasmHighlight
