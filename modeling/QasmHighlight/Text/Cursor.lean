import QasmHighlight.Text.Position
import QasmHighlight.Text.Slice

/-!
# Cursors

A cursor reads a text character by character.  It keeps its place in three
ways: as the characters still unread, as the number of UTF-8 bytes read, and
as a line and column.  A mark remembers a place; the text read since a mark is
cut out of the source by the two byte offsets.
-/

namespace QasmHighlight
namespace Text

/-- A place in a source: the UTF-8 bytes before it, and its position. -/
structure Mark where
  offset : Nat
  position : Position
  deriving DecidableEq, Inhabited

structure Cursor where
  source : List Char
  unread : List Char
  mark : Mark

namespace Cursor

def ofText (text : List Char) : Cursor :=
  ⟨text, text, ⟨0, .start⟩⟩

/-- The character `n` places ahead; the next one is at place zero. -/
def peek? (cursor : Cursor) (n : Nat) : Option Char :=
  cursor.unread[n]?

/-- Reads one character, unless the text is at its end. -/
def advance (cursor : Cursor) : Cursor :=
  match cursor.unread with
  | [] => cursor
  | c :: rest =>
    { cursor with
      unread := rest
      mark := ⟨cursor.mark.offset + c.utf8Size, cursor.mark.position.step c rest.head?⟩ }

/-- Reads characters as long as they satisfy `accept`. -/
def eatWhile (accept : Char → Bool) (cursor : Cursor) : Cursor :=
  match _h : cursor.unread with
  | [] => cursor
  | c :: _ => if accept c then eatWhile accept cursor.advance else cursor
termination_by cursor.unread.length
decreasing_by simp [advance, _h]

/-- The source from the byte offset of the cursor on. -/
def remainder (cursor : Cursor) : List Char :=
  dropBytes cursor.mark.offset cursor.source

/-- The source between the byte offsets of a mark and of the cursor. -/
def textSince (cursor : Cursor) (mark : Mark) : List Char :=
  slice mark.offset cursor.mark.offset cursor.source

end Cursor
end Text
end QasmHighlight
