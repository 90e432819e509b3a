import QasmHighlight.Proofs.Text.LinePosition
import QasmHighlight.Text.Cursor

/-!
# Cursors by the place they have come to

A cursor keeps its place as a text still unread, as a number of bytes and as a
position, and moves all three with each character.  After a number of steps all
of them are given by that number alone: the unread text is the source from there
on, the bytes are those of what was read, and the position is that of the place.
-/

namespace QasmHighlight
namespace Text

theorem positionAt_succ {text : List Char} {place : Nat} {c : Char}
    (hc : text[place]? = some c) :
    positionAt text (place + 1) = (positionAt text place).step c text[place + 1]? := by
  obtain ⟨hplace, _⟩ := List.getElem?_eq_some_iff.1 hc
  have htake : text.take (place + 1) = text.take place ++ [c] := by
    rw [List.take_add_one, hc]
    rfl
  rw [← Position.after_take_eq_positionAt text hplace,
    ← Position.after_take_eq_positionAt text (Nat.le_of_lt hplace), htake,
    Position.after_append, hc]
  rfl

namespace Cursor

/-- The cursor that has read as many characters of a text as `place` says. -/
def upTo (text : List Char) (place : Nat) : Cursor :=
  ⟨text, text.drop place, ⟨bytes (text.take place), positionAt text place⟩⟩

theorem ofText_eq_upTo (text : List Char) : ofText text = upTo text 0 := by
  rw [upTo, ← Position.after_take_eq_positionAt text (Nat.zero_le _)]
  rfl

theorem advance_upTo {text : List Char} {place : Nat} (hplace : place < text.length) :
    (upTo text place).advance = upTo text (place + 1) := by
  have hc := List.getElem?_eq_getElem hplace
  have hunread : (upTo text place).unread = text[place] :: text.drop (place + 1) :=
    List.drop_eq_getElem_cons hplace
  have hbytes : bytes (text.take (place + 1)) = bytes (text.take place) + text[place].utf8Size := by
    rw [List.take_add_one, hc, bytes_append]
    simp
  unfold advance
  rw [hunread]
  dsimp only [upTo]
  rw [List.head?_drop, ← positionAt_succ hc, hbytes]

theorem iterate_advance_ofText {text : List Char} {place : Nat} (hplace : place ≤ text.length) :
    advance^[place] (ofText text) = upTo text place := by
  induction place with
  | zero => exact ofText_eq_upTo text
  | succ place ih =>
      rw [Function.iterate_succ_apply', ih (Nat.le_of_lt hplace), advance_upTo hplace]

end Cursor
end Text
end QasmHighlight
