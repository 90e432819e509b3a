import QasmHighlight.Text.LineBreak
import QasmHighlight.Text.Width

/-!
# Positions

A position is a line, counted from one, and a column in UTF-16 code units,
counted from zero.  It moves one character at a time.  Whether a CR ends its
line depends on the character after it, so reading a stretch of text takes
the character that follows the stretch as an argument; with it, reading two
stretches in turn is reading them at once.
-/

namespace QasmHighlight
namespace Text

/-- A one-based line and a zero-based UTF-16 column. -/
structure Position where
  line : Nat
  column : Nat
  deriving DecidableEq, Inhabited

def Position.start : Position := ⟨1, 0⟩

/-- The position after the character `c` when `next` comes after it. -/
def Position.step (p : Position) (c : Char) (next : Option Char) : Position :=
  if c = '\n' ∨ (c = '\r' ∧ next ≠ some '\n') then ⟨p.line + 1, 0⟩
  else ⟨p.line, p.column + width c⟩

/-- The position after a stretch of text when `next` comes after it. -/
def Position.after (p : Position) (text : List Char) (next : Option Char) : Position :=
  match text with
  | [] => p
  | c :: rest => (p.step c (rest.head?.or next)).after rest next

@[simp] theorem Position.after_nil (p : Position) (next : Option Char) :
    p.after [] next = p := rfl

@[simp] theorem Position.after_cons (p : Position) (c : Char) (rest : List Char)
    (next : Option Char) :
    p.after (c :: rest) next = (p.step c (rest.head?.or next)).after rest next := rfl

/-- Reading two stretches in turn is reading them at once. -/
theorem Position.after_append (p : Position) (a b : List Char) (next : Option Char) :
    p.after (a ++ b) next = (p.after a (b.head?.or next)).after b next := by
  induction a generalizing p with
  | nil => rfl
  | cons c cs ih =>
    simp only [List.cons_append, Position.after_cons, ih, List.head?_append, Option.or_assoc]

end Text
end QasmHighlight
