import QasmHighlight.Proofs.Document.Clamping
import QasmHighlight.Proofs.Document.Lookup
import QasmHighlight.Proofs.Text.CursorPlace

/-!
# Points as an inverse of reading

A cursor turns a place of a text into a line and a column, and the document turns
a line and a column into a place.  The second undoes the first, except between
the CR and the LF of one break: no point stands for that place, and the cursor's
column there, one beyond the content of the line, is moved back to its end.  Every
point stands for a place of the text, and a later point for no earlier place.
-/

namespace QasmHighlight

open Text

def Point.NotAfter (p q : Point) : Prop :=
  p.line < q.line ∨ p.line = q.line ∧ p.column ≤ q.column

theorem Text.splitsCrlf_take_iff {text : List Char} {place : Nat} :
    SplitsCrlf (text.take place) text[place]? ↔
      ∃ i, place = i + 1 ∧ text[i]? = some '\r' ∧ text[i + 1]? = some '\n' := by
  have hlast : ∀ i, text[i + 1]? = some '\n' → (text.take (i + 1)).getLast? = text[i]? := by
    intro i hlf
    obtain ⟨hi, _⟩ := List.getElem?_eq_some_iff.1 hlf
    rw [List.getLast?_take, if_neg (Nat.succ_ne_zero i), Nat.add_sub_cancel,
      List.getElem?_eq_getElem (Nat.lt_of_succ_lt hi), Option.some_or]
  constructor
  · rintro ⟨hcr, hlf⟩
    cases place with
    | zero => cases hcr
    | succ i => exact ⟨i, rfl, hlast i hlf ▸ hcr, hlf⟩
  · rintro ⟨i, rfl, hcr, hlf⟩
    exact ⟨(hlast i hlf).trans hcr, hlf⟩

/-! ## Lines lie one after another -/

private theorem charsWithin_mono {room wider : Nat} (hroom : room ≤ wider) (text : List Char) :
    charsWithin room text ≤ charsWithin wider text :=
  Nat.findGreatest_mono (fun _ hfits => Nat.le_trans hfits hroom) (Nat.le_refl _)

private theorem exists_of_mem_breakEnds {text : List Char} {start : Nat}
    (hstart : start ∈ breakEnds text) :
    ∃ i, start = i + 1 ∧
      (text[i]? = some '\n' ∨ text[i]? = some '\r' ∧ text[i + 1]? ≠ some '\n') := by
  have hends := List.of_mem_filter hstart
  cases start with
  | zero => cases hends
  | succ i => exact ⟨i, rfl, by simpa [breakEndsAt] using hends⟩

theorem pairwise_lineBegins (text : List Char) : (lineBegins text).Pairwise (· < ·) := by
  refine .cons ?_ (List.pairwise_lt_range.filter _)
  intro start hstart
  obtain ⟨i, rfl, _⟩ := exists_of_mem_breakEnds hstart
  exact Nat.succ_pos i

private theorem lineContent_ends_at_break {text : List Char} {start place : Nat} {c : Char}
    (hstart : start ≤ place) (hc : text[place]? = some c) (hbreak : isBreak c = true) :
    start + (lineContent (text.drop start)).length ≤ place := by
  by_contra hlt
  have hinside : place - start < (lineContent (text.drop start)).length := by omega
  have hprefix : lineContent (text.drop start) <+: text.drop start := List.takeWhile_prefix _
  have hget := hprefix.getElem hinside
  have hsame : (lineContent (text.drop start))[place - start] = c := by
    rw [hget, List.getElem_drop]
    apply Option.some.inj
    rw [← hc, ← List.getElem?_eq_getElem]
    congr 1
    omega
  have hplain := lineContent_not_isBreak (text.drop start) _ (List.getElem_mem hinside)
  rw [hsame, hbreak] at hplain
  cases hplain

namespace Point

variable {text : List Char} {p q : Point} {start : Nat}

private theorem clamped_of_getElem? (hline : (lineBegins text)[p.line]? = some start) :
    p.clamped text = start + charsWithin p.column (lineContent (text.drop start)) := by
  rw [clamped, hline]

private theorem clamped_of_getElem?_eq_none (hline : (lineBegins text)[p.line]? = none) :
    p.clamped text = text.length := by
  rw [clamped, hline]

theorem clamped_le_lineEnd (hline : (lineBegins text)[p.line]? = some start) :
    p.clamped text ≤ start + (lineContent (text.drop start)).length := by
  rw [clamped_of_getElem? hline]
  exact Nat.add_le_add_left (charsWithin_le_length _ _) start

/-- The content of a line ends before the break after which a lower line begins. -/
theorem clamped_le_of_line_lt (hlines : p.line < q.line) : p.clamped text ≤ q.clamped text := by
  cases hq : (lineBegins text)[q.line]? with
  | none =>
      rw [clamped_of_getElem?_eq_none hq]
      exact p.clamped_le_length text
  | some stop =>
      obtain ⟨hqLine, hstop⟩ := List.getElem?_eq_some_iff.1 hq
      have hpLine := Nat.lt_trans hlines hqLine
      have hp := List.getElem?_eq_getElem hpLine
      have horder := List.pairwise_iff_getElem.1 (pairwise_lineBegins text) _ _ hpLine hqLine hlines
      have hbreakEnd : stop ∈ breakEnds text := by
        rcases List.mem_cons.1 (List.mem_of_getElem? hq) with rfl | hmem
        · omega
        · exact hmem
      obtain ⟨i, rfl, hbreak⟩ := exists_of_mem_breakEnds hbreakEnd
      have hcontent : (lineBegins text)[p.line] +
          (lineContent (text.drop (lineBegins text)[p.line])).length ≤ i := by
        rcases hbreak with hlf | ⟨hcr, _⟩
        · exact lineContent_ends_at_break (by omega) hlf rfl
        · exact lineContent_ends_at_break (by omega) hcr rfl
      have hpEnd := clamped_le_lineEnd hp
      rw [clamped_of_getElem? hq]
      omega

theorem clamped_mono (horder : p.NotAfter q) : p.clamped text ≤ q.clamped text := by
  rcases horder with hlines | ⟨hsame, hcolumns⟩
  · exact clamped_le_of_line_lt hlines
  · unfold clamped
    rw [hsame]
    split
    · exact Nat.le_refl _
    · next start _ => exact Nat.add_le_add_left (charsWithin_mono hcolumns _) start

/-- The content of a line ends at a CR and a line begins where a break ends, so no
point is placed inside a CRLF. -/
theorem not_splitsCrlf_clamped (p : Point) (text : List Char) :
    ¬ SplitsCrlf (text.take (p.clamped text)) text[p.clamped text]? := by
  intro hsplits
  obtain ⟨i, hplace, hcr, hlf⟩ := splitsCrlf_take_iff.1 hsplits
  obtain ⟨hi, _⟩ := List.getElem?_eq_some_iff.1 hlf
  cases hline : (lineBegins text)[p.line]? with
  | none =>
      have hend := clamped_of_getElem?_eq_none hline
      omega
  | some start =>
      by_cases hstart : start ≤ i
      · have hcontent := lineContent_ends_at_break hstart hcr rfl
        have hlineEnd := clamped_le_lineEnd hline
        omega
      · have hvalue := clamped_of_getElem? hline
        have hbegin : start = i + 1 := by omega
        rcases List.mem_cons.1 (List.mem_of_getElem? hline) with rfl | hend
        · cases hbegin
        · obtain ⟨j, rfl, hbreak⟩ := exists_of_mem_breakEnds hend
          obtain rfl : j = i := by omega
          rcases hbreak with hother | ⟨_, hnext⟩
          · rw [hcr] at hother
            cases hother
          · exact hnext hlf

/-- Columns beyond the content of a line stand for the place of its break. -/
theorem clamped_eq_of_isBreak {place column : Nat} {c : Char} (hp : p.clamped text = place)
    (hc : text[place]? = some c) (hbreak : isBreak c = true) (hcolumn : p.column ≤ column) :
    (⟨p.line, column⟩ : Point).clamped text = place := by
  obtain ⟨hplace, _⟩ := List.getElem?_eq_some_iff.1 hc
  have hlow : p.clamped text ≤ (⟨p.line, column⟩ : Point).clamped text :=
    clamped_mono (.inr ⟨rfl, hcolumn⟩)
  cases hline : (lineBegins text)[p.line]? with
  | none =>
      have hend := clamped_of_getElem?_eq_none hline
      omega
  | some start =>
      have hvalue := clamped_of_getElem? hline
      have hcontent : start + (lineContent (text.drop start)).length ≤ place :=
        lineContent_ends_at_break (by omega) hc hbreak
      have hhigh : (⟨p.line, column⟩ : Point).clamped text ≤ _ := clamped_le_lineEnd hline
      omega

end Point

/-! ## Points of positions -/

theorem offset_toPoint_positionAt {text : List Char} {place : Nat} (hplace : place ≤ text.length)
    (hwhole : ¬ SplitsCrlf (text.take place) text[place]?) :
    (positionAt text place).toPoint.offset text = place := by
  have hnext : (text.drop place).head? = text[place]? := List.head?_drop
  rw [← hnext] at hwhole
  have hfound := offset_toPoint_after (text.take place) (text.drop place) hwhole
  rw [List.take_append_drop, hnext, Position.after_take_eq_positionAt text hplace,
    List.length_take_of_le hplace] at hfound
  exact hfound

/-- Between a CR and an LF the column is one beyond the content of the line. -/
theorem offset_toPoint_positionAt_of_splitsCrlf {text : List Char} {place : Nat}
    (hsplits : SplitsCrlf (text.take place) text[place]?) :
    (positionAt text place).toPoint.offset text = place - 1 := by
  obtain ⟨i, rfl, hcr, hlf⟩ := splitsCrlf_take_iff.1 hsplits
  obtain ⟨hi, _⟩ := List.getElem?_eq_some_iff.1 hcr
  have hbefore : ¬ SplitsCrlf (text.take i) text[i]? := by
    rintro ⟨_, hnext⟩
    rw [hcr] at hnext
    cases hnext
  have hoffset := offset_toPoint_positionAt (Nat.le_of_lt hi) hbefore
  have hstep : positionAt text (i + 1) =
      ⟨(positionAt text i).line, (positionAt text i).column + 1⟩ := by
    rw [positionAt_succ hcr, hlf]
    rfl
  rw [hstep, Nat.add_sub_cancel, Point.offset_eq_clamped]
  rw [Point.offset_eq_clamped] at hoffset
  exact Point.clamped_eq_of_isBreak hoffset hcr rfl (Nat.le_succ _)

/-- The place of a cursor is found again at its line and column, but for a place
between a CR and an LF, where the place before the CR is found.  The place of a
point comes no later than that of a point after it, lies in the text, and never
between a CR and an LF. -/
theorem offset_inverts_advance (text : List Char) :
    (∀ n ≤ text.length,
      let point := (Cursor.advance^[n] (.ofText text)).mark.position.toPoint
      (¬ SplitsCrlf (text.take n) text[n]? → point.offset text = n) ∧
      (SplitsCrlf (text.take n) text[n]? → point.offset text = n - 1)) ∧
    (∀ p q : Point, p.NotAfter q → p.offset text ≤ q.offset text ∧ q.offset text ≤ text.length) ∧
    ∀ p : Point, ¬ SplitsCrlf (text.take (p.offset text)) text[p.offset text]? := by
  refine ⟨?_, ?_, ?_⟩
  · intro n hn
    rw [Cursor.iterate_advance_ofText hn]
    exact ⟨offset_toPoint_positionAt hn, offset_toPoint_positionAt_of_splitsCrlf⟩
  · intro p q horder
    rw [Point.offset_eq_clamped, Point.offset_eq_clamped]
    exact ⟨Point.clamped_mono horder, q.clamped_le_length text⟩
  · intro p
    rw [Point.offset_eq_clamped]
    exact p.not_splitsCrlf_clamped text

example : (List.range 5).map (fun n =>
      (Cursor.advance^[n] (.ofText "𝜃\r\nx".toList)).mark.position.toPoint.offset "𝜃\r\nx".toList) =
    [0, 1, 1, 3, 4] := by
  decide

end QasmHighlight
