import QasmHighlight.Proofs.Text.CheckedPosition
import QasmHighlight.Proofs.Text.CursorPlace

/-!
# Cursors in use

Only two uses of a cursor move it: reading a character, and reading a run of
characters that are accepted.  Looking ahead, taking a mark and cutting out text
leave it where it is.  So whatever is done with a cursor, its place is given by the
characters that were consumed, and the offset, the unread text, the line and the
column are those of that place.  The offset then always lies between two characters,
and the source cut at two offsets gives what was consumed between them.  While the
bytes of the source leave room in a word, so do its line and its column.
-/

namespace QasmHighlight
namespace Text

private theorem isPrefix_takeWhile {accept : Char → Bool} {front text : List Char}
    (hfront : front <+: text) (haccepted : ∀ c ∈ front, accept c = true) :
    front <+: text.takeWhile accept := by
  obtain ⟨rest, rfl⟩ := hfront
  rw [List.takeWhile_append_of_pos haccepted]
  exact List.prefix_append front _

namespace Cursor

/-! ## Uses and what they consume -/

/-- What can be done with a cursor. -/
inductive Use where
  | peek (n : Nat)
  | advance
  | eatWhile (accept : Char → Bool)
  | mark
  | textSince (earlier : Mark)
  | remainder

def afterUse (cursor : Cursor) : Use → Cursor
  | .advance => cursor.advance
  | .eatWhile accept => cursor.eatWhile accept
  | _ => cursor

/-- The cursor on a text after it was put to uses. -/
def reached (source : List Char) (uses : List Use) : Cursor :=
  uses.foldl afterUse (.ofText source)

/-- The characters that a use takes from the front of those left. -/
def Use.consumed : Use → List Char → List Char
  | .advance, left => left.take 1
  | .eatWhile accept, left => left.takeWhile accept
  | _, _ => []

/-- The characters that uses take, one after another. -/
def consumed (left : List Char) : List Use → List Char
  | [] => []
  | use :: later =>
    use.consumed left ++ consumed (left.drop (use.consumed left).length) later

theorem Use.consumed_append_drop (use : Use) (left : List Char) :
    use.consumed left ++ left.drop (use.consumed left).length = left := by
  rw [← List.prefix_iff_eq_append]
  cases use with
  | advance => exact List.take_prefix 1 left
  | eatWhile accept => exact List.takeWhile_prefix accept
  | _ => exact List.nil_prefix

theorem consumed_append_drop (left : List Char) (uses : List Use) :
    consumed left uses ++ left.drop (consumed left uses).length = left := by
  induction uses generalizing left with
  | nil => rfl
  | cons use later ih =>
      rw [consumed, List.append_assoc, List.length_append, ← List.drop_drop, ih,
        use.consumed_append_drop]

theorem consumed_eq_take (left : List Char) (uses : List Use) :
    consumed left uses = left.take (consumed left uses).length :=
  List.prefix_iff_eq_take.1 (List.prefix_iff_eq_append.2 (consumed_append_drop left uses))

theorem consumed_append (left : List Char) (earlier later : List Use) :
    consumed left (earlier ++ later) =
      consumed left earlier ++ consumed (left.drop (consumed left earlier).length) later := by
  induction earlier generalizing left with
  | nil => rfl
  | cons use more ih =>
      rw [List.cons_append, consumed, ih, consumed, List.append_assoc, List.length_append,
        ← List.drop_drop]

/-! ## Uses by the place they lead to -/

private theorem advance_of_unread_eq_nil {cursor : Cursor} (hend : cursor.unread = []) :
    cursor.advance = cursor := by
  rw [advance, hend]

private theorem eatWhile_of_unread_eq_nil {cursor : Cursor} (hend : cursor.unread = [])
    (accept : Char → Bool) : cursor.eatWhile accept = cursor := by
  rw [eatWhile]
  split
  · rfl
  · next hunread =>
    rw [hend] at hunread
    cases hunread

private theorem eatWhile_of_unread_eq_cons {cursor : Cursor} {c : Char} {rest : List Char}
    (hunread : cursor.unread = c :: rest) (accept : Char → Bool) :
    cursor.eatWhile accept =
      if accept c then cursor.advance.eatWhile accept else cursor := by
  rw [eatWhile]
  split
  · next hend =>
    rw [hend] at hunread
    cases hunread
  · next hcons =>
    rw [hcons] at hunread
    cases hunread
    rfl

section

variable {text : List Char} {place : Nat}

theorem eatWhile_upTo (hplace : place ≤ text.length) (accept : Char → Bool) :
    (upTo text place).eatWhile accept =
      upTo text (place + ((text.drop place).takeWhile accept).length) := by
  induction hleft : text.length - place generalizing place with
  | zero =>
      have hend : text.drop place = [] := List.drop_eq_nil_of_le (by omega)
      rw [eatWhile_of_unread_eq_nil hend, hend]
      rfl
  | succ left ih =>
      have hlt : place < text.length := by omega
      have hnext : place + 1 ≤ text.length := hlt
      have hrest := ih hnext (by omega)
      have hunread : text.drop place = text[place] :: text.drop (place + 1) :=
        List.drop_eq_getElem_cons hlt
      rw [eatWhile_of_unread_eq_cons hunread, hunread, advance_upTo hlt]
      by_cases haccept : accept text[place] = true
      · rw [if_pos haccept, hrest, List.takeWhile_cons_of_pos haccept, List.length_cons,
          Nat.add_right_comm, ← Nat.add_assoc]
      · rw [if_neg haccept, List.takeWhile_cons_of_neg haccept]
        rfl

theorem afterUse_upTo (hplace : place ≤ text.length) (use : Use) :
    (upTo text place).afterUse use =
      upTo text (place + (use.consumed (text.drop place)).length) := by
  cases use with
  | advance =>
      rcases Nat.lt_or_eq_of_le hplace with hlt | rfl
      · have hone : ((text.drop place).take 1).length = 1 := by
          rw [List.length_take, List.length_drop]
          omega
        rw [afterUse, advance_upTo hlt, Use.consumed, hone]
      · rw [afterUse, advance_of_unread_eq_nil List.drop_length, Use.consumed, List.drop_length]
        rfl
  | eatWhile accept => exact eatWhile_upTo hplace accept
  | _ => rfl

theorem foldl_afterUse_upTo (hplace : place ≤ text.length) (uses : List Use) :
    uses.foldl afterUse (upTo text place) =
      upTo text (place + (consumed (text.drop place) uses).length) := by
  induction uses generalizing place with
  | nil => rfl
  | cons use later ih =>
      have hshort := congrArg List.length (use.consumed_append_drop (text.drop place))
      simp only [List.length_append, List.length_drop] at hshort
      rw [List.foldl_cons, afterUse_upTo hplace, ih (by omega), consumed, List.drop_drop,
        List.length_append, Nat.add_assoc]

theorem remainder_upTo (text : List Char) (place : Nat) :
    (upTo text place).remainder = text.drop place := by
  have hcut := dropBytes_append (text.take place) (text.drop place)
  rwa [List.take_append_drop] at hcut

theorem textSince_upTo {earlier : Nat} (horder : earlier ≤ place) :
    (upTo text place).textSince (upTo text earlier).mark = (text.take place).drop earlier := by
  have hread : text.take earlier ++ (text.take place).drop earlier = text.take place := by
    have htake : text.take earlier = (text.take place).take earlier := by
      rw [List.take_take, Nat.min_eq_left horder]
    rw [htake, List.take_append_drop]
  have hcut := slice_append (text.take earlier) ((text.take place).drop earlier) (text.drop place)
  rw [← bytes_append, hread, List.take_append_drop] at hcut
  exact hcut

end

/-! ## What was consumed and what is left -/

theorem reached_eq_upTo (source : List Char) (uses : List Use) :
    reached source uses = upTo source (consumed source uses).length := by
  rw [reached, ofText_eq_upTo, foldl_afterUse_upTo (Nat.zero_le _), List.drop_zero, Nat.zero_add]

theorem offset_reached (source : List Char) (uses : List Use) :
    (reached source uses).mark.offset = bytes (consumed source uses) := by
  rw [reached_eq_upTo]
  exact congrArg bytes (consumed_eq_take source uses).symm

theorem consumed_append_remainder (source : List Char) (uses : List Use) :
    consumed source uses ++ (reached source uses).remainder = source := by
  rw [reached_eq_upTo, remainder_upTo, consumed_append_drop]

theorem consumed_append_textSince (source : List Char) (earlier later : List Use) :
    consumed source earlier ++
        (reached source (earlier ++ later)).textSince (reached source earlier).mark =
      consumed source (earlier ++ later) := by
  have hbefore : consumed source earlier <+: consumed source (earlier ++ later) := by
    rw [consumed_append]
    exact List.prefix_append _ _
  rw [reached_eq_upTo, reached_eq_upTo, textSince_upTo hbefore.length_le, ← consumed_eq_take]
  exact List.prefix_iff_eq_append.1 hbefore

theorem remainder_eq_textSince_append (source : List Char) (earlier later : List Use) :
    (reached source earlier).remainder =
      (reached source (earlier ++ later)).textSince (reached source earlier).mark ++
        (reached source (earlier ++ later)).remainder := by
  have hwhole := consumed_append_remainder source (earlier ++ later)
  rw [← consumed_append_textSince, List.append_assoc] at hwhole
  exact List.append_cancel_left ((consumed_append_remainder source earlier).trans hwhole.symm)

theorem reached_concat (source : List Char) (uses : List Use) (use : Use) :
    reached source (uses ++ [use]) = (reached source uses).afterUse use := by
  rw [reached, List.foldl_append]
  rfl

theorem textSince_eatWhile (source : List Char) (uses : List Use) (accept : Char → Bool) :
    ((reached source uses).eatWhile accept).textSince (reached source uses).mark =
      (reached source uses).remainder.takeWhile accept := by
  have hremainder : (reached source uses).remainder =
      source.drop (consumed source uses).length := by
    rw [reached_eq_upTo, remainder_upTo]
  have hsince := consumed_append_textSince source uses [.eatWhile accept]
  rw [consumed_append, List.append_cancel_left_eq, reached_concat, afterUse, ← hremainder,
    consumed, consumed, List.append_nil] at hsince
  exact hsince

/-- Whatever a cursor is put to, its offset lies within the text and between two
characters, the remainder is what was not consumed, and the text since a mark is what
was consumed since then.  Its line and column are counted from the line breaks
consumed and grow no faster than its offset.  It looks ahead into the remainder, and it
eats the longest run of accepted characters. -/
theorem cursor_exact_under_use (source : List Char) (uses : List Use) :
    let cursor := reached source uses
    let read := consumed source uses
    (cursor.mark.offset ≤ bytes source ∧ isBoundary cursor.mark.offset source = true) ∧
    read ++ cursor.remainder = source ∧
    (∀ earlier later, uses = earlier ++ .mark :: later →
      (reached source earlier).mark.offset ≤ cursor.mark.offset ∧
      consumed source earlier ++ cursor.textSince (reached source earlier).mark = read) ∧
    cursor.mark.position.line = 1 + read.count '\n' +
      Nat.count (fun i => source[i]? = some '\r' ∧ source[i + 1]? ≠ some '\n') read.length ∧
    cursor.mark.position.column = units (read.drop (lineStart source read.length)) ∧
    (cursor.mark.position.line ≤ cursor.mark.offset + 1 ∧
      cursor.mark.position.column ≤ cursor.mark.offset) ∧
    (∀ n, cursor.peek? n = cursor.remainder[n]?) ∧
    ∀ accept,
      let eaten := (cursor.eatWhile accept).textSince cursor.mark
      cursor.remainder = eaten ++ (cursor.eatWhile accept).remainder ∧
      (∀ c ∈ eaten, accept c = true) ∧
      ∀ front, front <+: cursor.remainder → (∀ c ∈ front, accept c = true) →
        front <+: eaten := by
  intro cursor read
  have hsplit : read ++ cursor.remainder = source := consumed_append_remainder source uses
  have hoffset : cursor.mark.offset = bytes read := offset_reached source uses
  have hcursor : cursor = upTo source read.length := reached_eq_upTo source uses
  have hread : source.take read.length = read := (consumed_eq_take source uses).symm
  have hposition : cursor.mark.position = positionAt source read.length := by
    rw [hcursor]
    rfl
  refine ⟨⟨?_, ?_⟩, hsplit, ?_, ?_, ?_, ?_, ?_, ?_⟩
  · rw [hoffset, ← hsplit, bytes_append]
    exact Nat.le_add_right _ _
  · have hboundary := isBoundary_bytes_append read cursor.remainder
    rwa [hsplit, ← hoffset] at hboundary
  · rintro earlier later rfl
    have hsince := consumed_append_textSince source earlier (.mark :: later)
    have hbytes := congrArg bytes hsince
    rw [bytes_append] at hbytes
    refine ⟨?_, hsince⟩
    rw [hoffset, offset_reached, ← hbytes]
    exact Nat.le_add_right _ _
  · rw [hposition, line_positionAt, hread]
  · rw [hposition, positionAt, hread]
  · have hbounds := Position.start_after_le_bytes read cursor.remainder.head?
    rwa [Position.after_eq_positionAt, hsplit, ← hposition, ← hoffset] at hbounds
  · intro n
    rw [hcursor, remainder_upTo]
    rfl
  · intro accept eaten
    have heaten : eaten = cursor.remainder.takeWhile accept := textSince_eatWhile source uses accept
    have hleft := remainder_eq_textSince_append source uses [.eatWhile accept]
    rw [reached_concat] at hleft
    refine ⟨hleft, ?_, ?_⟩
    · rw [heaten]
      intro c hc
      exact List.mem_takeWhile_imp hc
    · rw [heaten]
      intro front hfront haccepted
      exact isPrefix_takeWhile hfront haccepted

/-- Between the CR and the LF of a break the column counts the CR. -/
example : (reached "𝜃\r\nx".toList [.advance, .mark, .advance, .peek 1]).mark = ⟨5, ⟨1, 3⟩⟩ := by
  decide

/-- If the bytes of the source leave room in a word, reading with words what uses
consume meets no fault and leads to the position of the cursor. -/
theorem checked_after_consumed {source : List Char} (hsmall : bytes source + 1 < wordBound)
    (uses : List Use) :
    Checked.after .start (consumed source uses) (reached source uses).remainder.head? =
      .ok (reached source uses).mark.position := by
  have hsplit := consumed_append_remainder source uses
  have hroom : Position.start.HasRoom source := .start_of_bytes hsmall
  rw [← hsplit] at hroom
  rw [Checked.after_eq_ok hroom.of_append, Position.after_eq_positionAt, hsplit, reached_eq_upTo]
  rfl

end Cursor
end Text
end QasmHighlight
