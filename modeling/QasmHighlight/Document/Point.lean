import QasmHighlight.Text.LineBreak
import QasmHighlight.Text.Width

/-!
# Points

An editor names a place in a document by a zero-based line and a zero-based
column in UTF-16 code units.  Every point denotes a place: a column beyond the
content of its line is the end of that content, a column inside a surrogate pair
is the place before the character, and a line beyond the last is the end of the
document.
-/

namespace QasmHighlight

open Text

/-- A zero-based line and a zero-based UTF-16 column. -/
structure Point where
  line : Nat
  column : Nat
  deriving DecidableEq, Inhabited

/-- How many leading characters of a text fit into `room` UTF-16 code units,
with `count` counted already. -/
def fitting (count room : Nat) : List Char → Nat
  | [] => count
  | c :: rest =>
    if width c ≤ room then fitting (count + 1) (room - width c) rest else count

/-- The number of characters before a point of a text, with `before` characters
ahead of the text. -/
def Point.offsetFrom (before line column : Nat) (text : List Char) : Nat :=
  match line with
  | 0 => fitting before column (lineContent text)
  | below + 1 =>
    match LineBreak.read? (afterContent text) with
    | none => before + text.length
    | some (lineBreak, rest) =>
      Point.offsetFrom (before + (lineContent text).length + lineBreak.chars.length) below column
        rest

def Point.offset (point : Point) (text : List Char) : Nat :=
  Point.offsetFrom 0 point.line point.column text

end QasmHighlight
