import Mathlib.Data.Nat.Count
import Mathlib.Data.Nat.Find
import QasmHighlight.Proofs.Text.ByteSlice
import QasmHighlight.Proofs.Text.Lines
import QasmHighlight.Text.Position

/-!
# Positions and line breaks

A position is kept while a text is read, one character at a time and with one
character of lookahead.  Here it is compared with what it stands for: the line
is one more than the number of line breaks that end at or before the place, and
the column is the UTF-16 length of what lies between the end of the last of
them and the place.  A break that is read whole moves the position to the next
line, and a text without breaks moves only the column.
-/

namespace QasmHighlight
namespace Text

/-- Whether a line break of a text ends right before place `i`: an LF stands
there, or a CR that no LF follows. -/
def breakEndsAt (text : List Char) : Nat → Bool
  | 0 => false
  | i + 1 => text[i]? == some '\n' || (text[i]? == some '\r' && text[i + 1]? != some '\n')

/-- The place at which the line of place `i` begins: the end of the last line
break at or before `i`, or the start of the text. -/
def lineStart (text : List Char) (i : Nat) : Nat :=
  Nat.findGreatest (fun j => breakEndsAt text j = true) i

/-- The position of place `i` of a text, counted in characters. -/
def positionAt (text : List Char) (i : Nat) : Position :=
  ⟨1 + Nat.count (fun j => breakEndsAt text j = true) (i + 1),
    units ((text.take i).drop (lineStart text i))⟩

theorem breakEndsAt_zero (text : List Char) : breakEndsAt text 0 = false := rfl

/-! ## Reading a text without breaks -/

theorem Position.step_of_not_isBreak
    (p : Position) {c : Char} (hc : isBreak c = false) (next : Option Char) :
    p.step c next = ⟨p.line, p.column + width c⟩ := by
  obtain ⟨hlf, hcr⟩ := isBreak_eq_false_iff.1 hc
  simp [Position.step, hlf, hcr]

theorem Position.after_of_forall_not_isBreak
    (p : Position) {text : List Char} (htext : ∀ c ∈ text, isBreak c = false)
    (next : Option Char) :
    p.after text next = ⟨p.line, p.column + units text⟩ := by
  induction text generalizing p with
  | nil => simp
  | cons c rest ih =>
      have hc := htext c List.mem_cons_self
      have hrest : ∀ d ∈ rest, isBreak d = false := by
        intro d hd
        exact htext d (List.mem_cons_of_mem c hd)
      rw [Position.after_cons, Position.step_of_not_isBreak p hc, ih _ hrest, units_cons]
      simp only [Nat.add_assoc]

/-! ## Reading a break -/

/-- Reading a break moves to the start of the next line, unless what was read is
the CR of a CRLF whose LF is still to come. -/
theorem Position.after_lineBreak
    (p : Position) {text rest : List Char} {b : LineBreak} {next : Option Char}
    (hread : LineBreak.read? text = some (b, rest)) (hwhole : ¬ SplitsCrlf text next) :
    p.after b.chars (rest.head?.or next) = ⟨p.line + 1, 0⟩ := by
  unfold LineBreak.read? at hread
  split at hread
  · cases hread
    simp [LineBreak.chars, Position.step]
  · next more hcrlf =>
    cases hread
    have hnext : rest.head?.or next ≠ some '\n' := by
      cases rest with
      | nil =>
          intro hlf
          exact hwhole ⟨rfl, by simpa using hlf⟩
      | cons d more =>
          intro hlf
          have hd : d = '\n' := by simpa using hlf
          subst hd
          exact hcrlf more rfl
    simp [LineBreak.chars, Position.step, hnext]
  · cases hread
    simp [LineBreak.chars, Position.step]
  · cases hread

theorem Position.after_firstLine
    (p : Position) {text rest : List Char} {b : LineBreak} {next : Option Char}
    (hread : LineBreak.read? (afterContent text) = some (b, rest))
    (hwhole : ¬ SplitsCrlf text next) :
    p.after (lineContent text ++ b.chars) (rest.head?.or next) = ⟨p.line + 1, 0⟩ := by
  obtain ⟨hafter, _⟩ := not_splitsCrlf_of_read?_afterContent hread hwhole
  rw [Position.after_append,
    Position.after_of_forall_not_isBreak p (lineContent_not_isBreak text),
    Position.after_lineBreak _ hread hafter]

/-! ## How far a text moves a position -/

theorem Position.after_line_le (p : Position) (text : List Char) (next : Option Char) :
    (p.after text next).line ≤ p.line + text.length := by
  induction text generalizing p with
  | nil => simp
  | cons c rest ih =>
      have hrest := ih (p.step c (rest.head?.or next))
      have hstep : (p.step c (rest.head?.or next)).line ≤ p.line + 1 := by
        unfold Position.step
        split <;> simp
      rw [Position.after_cons, List.length_cons]
      omega

theorem Position.after_column_le (p : Position) (text : List Char) (next : Option Char) :
    (p.after text next).column ≤ p.column + units text := by
  induction text generalizing p with
  | nil => simp
  | cons c rest ih =>
      have hrest := ih (p.step c (rest.head?.or next))
      have hstep : (p.step c (rest.head?.or next)).column ≤ p.column + width c := by
        unfold Position.step
        split <;> simp
      rw [Position.after_cons, units_cons]
      omega

theorem Position.start_after_le_bytes (text : List Char) (next : Option Char) :
    (Position.start.after text next).line ≤ bytes text + 1 ∧
      (Position.start.after text next).column ≤ bytes text := by
  have hline := Position.start.after_line_le text next
  have hcolumn := Position.start.after_column_le text next
  have hchars := length_le_bytes text
  have hunits := units_le_bytes text
  simp only [Position.start] at hline hcolumn ⊢
  constructor <;> omega

theorem Position.le_after (p : Position) (text : List Char) (next : Option Char) :
    p.line < (p.after text next).line ∨
      p.line = (p.after text next).line ∧ p.column ≤ (p.after text next).column := by
  induction text generalizing p with
  | nil => simp
  | cons c rest ih =>
      have hrest := ih (p.step c (rest.head?.or next))
      have hstep : p.line < (p.step c (rest.head?.or next)).line ∨
          p.line = (p.step c (rest.head?.or next)).line ∧
            p.column ≤ (p.step c (rest.head?.or next)).column := by
        unfold Position.step
        split <;> simp
      rw [Position.after_cons]
      omega

/-! ## The position of a place -/

private theorem Position.step_eq_of_breakEndsAt
    {text : List Char} {i : Nat} {c : Char} (hc : text[i]? = some c) (p : Position) :
    p.step c text[i + 1]? =
      if breakEndsAt text (i + 1) = true then ⟨p.line + 1, 0⟩
      else ⟨p.line, p.column + width c⟩ := by
  have hends : breakEndsAt text (i + 1) = true ↔
      c = '\n' ∨ (c = '\r' ∧ text[i + 1]? ≠ some '\n') := by
    simp [breakEndsAt, hc]
  unfold Position.step
  simp only [hends]

private theorem lineStart_le (text : List Char) (i : Nat) : lineStart text i ≤ i :=
  Nat.findGreatest_le i

/-- Reading the first `i` characters of a text from its start leads to the
position of place `i`. -/
theorem Position.after_take_eq_positionAt
    (text : List Char) {i : Nat} (hi : i ≤ text.length) :
    Position.start.after (text.take i) text[i]? = positionAt text i := by
  induction i with
  | zero => simp [positionAt, Position.start, Nat.count_succ, breakEndsAt_zero]
  | succ i ih =>
      have hlt : i < text.length := hi
      have hc : text[i]? = some text[i] := List.getElem?_eq_getElem hlt
      have htake : text.take (i + 1) = text.take i ++ [text[i]] := by
        rw [List.take_add_one, hc]
        rfl
      have hprev := ih (Nat.le_of_lt hlt)
      rw [htake, Position.after_append, List.head?_cons, Option.some_or, ← hc, hprev,
        Position.after_cons, Position.after_nil, List.head?_nil, Option.none_or,
        Position.step_eq_of_breakEndsAt hc]
      split
      · next hends =>
        simp only [positionAt, lineStart, Nat.findGreatest_succ, hends, if_true,
          Nat.count_succ _ (i + 1)]
        simp [Nat.add_assoc]
      · next hends =>
        have hstart : lineStart text (i + 1) = lineStart text i := by
          simp [lineStart, hends]
        have hle := lineStart_le text i
        have hlen : lineStart text i ≤ (text.take i).length := by
          rw [List.length_take]
          omega
        simp only [positionAt, hstart, Nat.count_succ _ (i + 1), hends, htake,
          List.drop_append_of_le_length hlen, units_append]
        simp

theorem Position.after_eq_positionAt (before rest : List Char) :
    Position.start.after before rest.head? = positionAt (before ++ rest) before.length := by
  have hle : before.length ≤ (before ++ rest).length := by simp
  rw [← Position.after_take_eq_positionAt _ hle, List.take_left,
    List.getElem?_append_right (Nat.le_refl _), Nat.sub_self, List.head?_eq_getElem?]

/-- The line of a place, with its line breaks counted by the characters that end
them. -/
theorem line_positionAt (text : List Char) (place : Nat) :
    (positionAt text place).line = 1 + (text.take place).count '\n' +
      Nat.count (fun i => text[i]? = some '\r' ∧ text[i + 1]? ≠ some '\n') place := by
  dsimp only [positionAt]
  induction place with
  | zero => simp [Nat.count_succ, breakEndsAt_zero]
  | succ place ih =>
      have hlf : (text.take (place + 1)).count '\n' =
          (text.take place).count '\n' + if text[place]? = some '\n' then 1 else 0 := by
        rw [List.take_add_one, List.count_append]
        cases text[place]? <;> simp [List.count_singleton]
      have hends : breakEndsAt text (place + 1) = true ↔ text[place]? = some '\n' ∨
          text[place]? = some '\r' ∧ text[place + 1]? ≠ some '\n' := by
        simp [breakEndsAt]
      rw [Nat.count_succ, Nat.count_succ (fun i => text[i]? = some '\r' ∧ _), hlf]
      by_cases hc : text[place]? = some '\n'
      · have hnot : ¬ (text[place]? = some '\r' ∧ text[place + 1]? ≠ some '\n') := by
          simp [hc]
        rw [if_pos (hends.2 (.inl hc)), if_pos hc, if_neg hnot]
        omega
      · simp only [hends, hc, false_or, if_false]
        omega

end Text
end QasmHighlight
