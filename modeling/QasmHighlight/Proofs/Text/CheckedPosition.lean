import QasmHighlight.Proofs.Text.LinePosition
import QasmHighlight.Wire.Encoding

/-!
# Positions with words

Lines and columns are sent as words of 32 bits.  Here a position is moved so that it
keeps both in words, with every sum checked: each character read adds to the line or
to the column.  A position has room for a text if it could still be moved by every
character of it; reading a part of the text leaves room for the rest.  From a position
with room for it a text is read without a fault, and at the start of a text there is
room if its bytes leave any in a word.
-/

namespace QasmHighlight

open Text

/-- Why a computation with words stops: a sum that is no word, or a difference
below zero. -/
inductive WordFault where
  | sum
  | difference
  deriving DecidableEq

namespace Checked

def add (a b : Nat) : Except WordFault Nat :=
  if a + b < wordBound then .ok (a + b) else .error .sum

def sub (a b : Nat) : Except WordFault Nat :=
  if b ≤ a then .ok (a - b) else .error .difference

/-- The position after the character `c` when `next` comes after it. -/
def step (p : Position) (c : Char) (next : Option Char) : Except WordFault Position :=
  if c = '\n' ∨ (c = '\r' ∧ next ≠ some '\n') then do
    let line ← add p.line 1
    return ⟨line, 0⟩
  else do
    let column ← add p.column (width c)
    return ⟨p.line, column⟩

/-- The position after a stretch of text when `next` comes after it. -/
def after (p : Position) (text : List Char) (next : Option Char) : Except WordFault Position :=
  match text with
  | [] => return p
  | c :: rest => do
    let stepped ← step p c (rest.head?.or next)
    after stepped rest next

theorem add_eq_ok {a b : Nat} (hfits : a + b < wordBound) : add a b = .ok (a + b) :=
  if_pos hfits

theorem add_eq_error {a b : Nat} (hover : wordBound ≤ a + b) : add a b = .error .sum :=
  if_neg (Nat.not_lt.2 hover)

theorem sub_eq_ok {a b : Nat} (hle : b ≤ a) : sub a b = .ok (a - b) :=
  if_pos hle

end Checked

/-! ## Room for a text -/

/-- Neither the line nor the column leaves the words, whatever characters of the
text add to them. -/
structure Text.Position.HasRoom (p : Position) (text : List Char) : Prop where
  line_lt : p.line + text.length < wordBound
  column_lt : p.column + units text < wordBound

namespace Text.Position.HasRoom

variable {p : Position} {text rest : List Char}

theorem of_append (hroom : p.HasRoom (text ++ rest)) : p.HasRoom text := by
  obtain ⟨hline, hcolumn⟩ := hroom
  rw [List.length_append] at hline
  rw [units_append] at hcolumn
  constructor <;> omega

theorem after (hroom : p.HasRoom (text ++ rest)) (next : Option Char) :
    (p.after text next).HasRoom rest := by
  obtain ⟨hline, hcolumn⟩ := hroom
  have hlines := p.after_line_le text next
  have hcolumns := p.after_column_le text next
  rw [List.length_append] at hline
  rw [units_append] at hcolumn
  constructor <;> omega

theorem start_of_bytes (hsmall : bytes text + 1 < wordBound) : Position.start.HasRoom text := by
  have hchars := length_le_bytes text
  have hunits := units_le_bytes text
  constructor <;> simp only [Position.start] <;> omega

end Text.Position.HasRoom

/-! ## Checked positions against plain ones -/

namespace Checked

variable {p : Position} {text : List Char}

theorem step_eq_ok {c : Char} (hroom : p.HasRoom [c]) (next : Option Char) :
    step p c next = .ok (p.step c next) := by
  obtain ⟨hline, hcolumn⟩ := hroom
  unfold step Position.step
  split
  · rw [add_eq_ok (by simpa using hline)]
    rfl
  · rw [add_eq_ok (by simpa using hcolumn)]
    rfl

theorem after_eq_ok (hroom : p.HasRoom text) (next : Option Char) :
    after p text next = .ok (p.after text next) := by
  induction text generalizing p with
  | nil => rfl
  | cons c rest ih =>
      have hsplit : p.HasRoom ([c] ++ rest) := hroom
      have hrest : (p.step c (rest.head?.or next)).HasRoom rest := hsplit.after _
      rw [after, step_eq_ok hsplit.of_append]
      exact ih hrest

end Checked
end QasmHighlight
