import QasmHighlight.Text.LineBreak

/-!
# Strings and block comments

A string runs to its closing quote on the same line; a backslash takes the
character after it along.  A block comment runs to the first `*/`, over any
number of lines.  Both are found by the length of what follows the opening
delimiter.
-/

namespace QasmHighlight
namespace Lexeme

open Text

/-- How many characters of a text run up to and including the quote that closes
a string, with `before` counted already; none if the line ends first. -/
def closingQuote? (before : Nat) (text : List Char) : Option Nat :=
  match text with
  | [] => none
  | '"' :: _ => some (before + 1)
  | '\\' :: rest =>
    match rest with
    | [] => none
    | c :: more => if isBreak c then none else closingQuote? (before + 2) more
  | c :: rest => if isBreak c then none else closingQuote? (before + 1) rest

/-- How many characters of a text come before the first `*/`, with `before`
counted already. -/
def commentEnd? (before : Nat) (text : List Char) : Option Nat :=
  match text with
  | [] => none
  | c :: rest =>
    if c = '*' ∧ rest.head? = some '/' then some before
    else commentEnd? (before + 1) rest

end Lexeme
end QasmHighlight
