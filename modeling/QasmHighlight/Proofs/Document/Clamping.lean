import Mathlib.Data.Nat.Find
import QasmHighlight.Document.Change
import QasmHighlight.Proofs.Text.LinePosition

/-!
# Points as places of a text

The place of a point is found by walking over whole lines and then over
characters, with room in UTF-16 code units to spare.  Here it is compared with
what a point stands for, said without a walk: lines begin at the start of the
text and wherever a line break ends, and a column is as many leading characters
of the content of its line as take up no more code units.  A change of a range
therefore cuts out what stands between two such places, the second of them never
before the first and neither of them beyond the end of the text.
-/

namespace QasmHighlight

open Text

namespace Text

/-- The places at which the line breaks of a text end. -/
def breakEnds (text : List Char) : List Nat :=
  (List.range (text.length + 1)).filter (breakEndsAt text)

/-- The places at which the lines of a text begin. -/
def lineBegins (text : List Char) : List Nat :=
  0 :: breakEnds text

/-- The largest number of leading characters of a text that take up at most
`room` UTF-16 code units. -/
def charsWithin (room : Nat) (text : List Char) : Nat :=
  Nat.findGreatest (fun n => units (text.take n) ≤ room) text.length

end Text

/-- The place that a point of a text stands for: the end of the text if there is
no such line, and otherwise as many characters after the beginning of the line as
the column has room for in the content of the line. -/
def Point.clamped (point : Point) (text : List Char) : Nat :=
  match (lineBegins text)[point.line]? with
  | none => text.length
  | some start => start + charsWithin point.column (lineContent (text.drop start))

/-! ## Columns -/

theorem charsWithin_le_length (room : Nat) (text : List Char) :
    charsWithin room text ≤ text.length :=
  Nat.findGreatest_le _

private theorem charsWithin_eq_iff {room count : Nat} {text : List Char} :
    charsWithin room text = count ↔
      count ≤ text.length ∧ units (text.take count) ≤ room ∧
        ∀ n, count < n → n ≤ text.length → room < units (text.take n) := by
  unfold charsWithin
  rw [Nat.findGreatest_eq_iff]
  simp only [Nat.not_le]
  constructor
  · rintro ⟨hle, hfits, hmost⟩
    refine ⟨hle, ?_, hmost⟩
    by_cases hzero : count = 0
    · simp [hzero]
    · exact hfits hzero
  · rintro ⟨hle, hfits, hmost⟩
    exact ⟨hle, fun _ => hfits, hmost⟩

theorem charsWithin_cons (room : Nat) (c : Char) (rest : List Char) :
    charsWithin room (c :: rest) =
      if width c ≤ room then charsWithin (room - width c) rest + 1 else 0 := by
  obtain ⟨hle, hfits, hmost⟩ := charsWithin_eq_iff.1
    (rfl : charsWithin (room - width c) rest = charsWithin (room - width c) rest)
  rw [charsWithin_eq_iff]
  split
  · next hroom =>
    refine ⟨Nat.succ_le_succ hle, ?_, ?_⟩
    · rw [List.take_succ_cons, units_cons]
      omega
    · intro n hlt hn
      obtain ⟨n, rfl⟩ := Nat.exists_eq_succ_of_ne_zero (Nat.ne_zero_of_lt hlt)
      have hover := hmost n (Nat.lt_of_succ_lt_succ hlt) (Nat.le_of_succ_le_succ hn)
      rw [List.take_succ_cons, units_cons]
      omega
  · next hroom =>
    refine ⟨Nat.zero_le _, by simp, ?_⟩
    intro n hlt _
    obtain ⟨n, rfl⟩ := Nat.exists_eq_succ_of_ne_zero (Nat.ne_zero_of_lt hlt)
    rw [List.take_succ_cons, units_cons]
    omega

theorem fitting_eq_add_charsWithin (count room : Nat) (text : List Char) :
    fitting count room text = count + charsWithin room text := by
  induction text generalizing count room with
  | nil => rfl
  | cons c rest ih =>
      rw [fitting, charsWithin_cons]
      split
      · rw [ih]
        omega
      · rfl

/-! ## Beginnings of lines -/

private theorem breakEnds_eq_map (text : List Char) :
    breakEnds text =
      ((List.range text.length).filter fun i => breakEndsAt text (i + 1)).map Nat.succ := by
  unfold breakEnds
  rw [List.range_succ_eq_map, List.filter_cons_of_neg (by simp [breakEndsAt_zero]),
    List.filter_map]
  rfl

/-- One character ahead of a text moves all ends of breaks, and adds one if it
ends a break itself. -/
theorem breakEnds_cons (c : Char) (rest : List Char) :
    breakEnds (c :: rest) =
      if breakEndsAt (c :: rest) 1 then 1 :: (breakEnds rest).map (· + 1)
      else (breakEnds rest).map (· + 1) := by
  have hlater : ((List.range rest.length).map Nat.succ).filter
        (fun i => breakEndsAt (c :: rest) (i + 1)) = breakEnds rest := by
    rw [breakEnds_eq_map, List.filter_map]
    rfl
  rw [breakEnds_eq_map, List.length_cons, List.range_succ_eq_map, List.filter_cons, hlater]
  split
  · rfl
  · rfl

theorem breakEnds_append_of_not_isBreak {content : List Char}
    (hcontent : ∀ c ∈ content, isBreak c = false) (rest : List Char) :
    breakEnds (content ++ rest) = (breakEnds rest).map (· + content.length) := by
  induction content with
  | nil => simp
  | cons c more ih =>
      obtain ⟨hlf, hcr⟩ := isBreak_eq_false_iff.1 (hcontent c List.mem_cons_self)
      have hmore := ih fun d hd => hcontent d (List.mem_cons_of_mem c hd)
      have hnone : breakEndsAt (c :: (more ++ rest)) 1 = false := by
        simp [breakEndsAt, hlf, hcr]
      rw [List.cons_append, breakEnds_cons, if_neg (by simp [hnone]), hmore, List.map_map]
      simp [Function.comp_def, Nat.add_assoc]

private theorem breakEnds_of_read? {text rest : List Char} {b : LineBreak}
    (hread : LineBreak.read? text = some (b, rest)) :
    breakEnds text = (lineBegins rest).map (· + b.chars.length) := by
  unfold LineBreak.read? at hread
  split at hread
  · cases hread
    rw [breakEnds_cons, if_neg (by simp [breakEndsAt]), breakEnds_cons,
      if_pos (by simp [breakEndsAt])]
    simp [lineBegins, LineBreak.chars]
  · next more hcrlf =>
    cases hread
    have hends : breakEndsAt ('\r' :: rest) 1 = true := by
      cases rest with
      | nil => rfl
      | cons d more =>
          have hd : d ≠ '\n' := by
            rintro rfl
            exact hcrlf more rfl
          simp [breakEndsAt, hd]
    rw [breakEnds_cons, if_pos hends]
    simp [lineBegins, LineBreak.chars]
  · cases hread
    rw [breakEnds_cons, if_pos (by simp [breakEndsAt])]
    simp [lineBegins, LineBreak.chars]
  · cases hread

theorem lineBegins_of_read?_eq_none {text : List Char}
    (hread : LineBreak.read? (afterContent text) = none) : lineBegins text = [0] := by
  have hplain := lineContent_not_isBreak text
  rw [lineContent_eq_self_of_read?_eq_none hread] at hplain
  have hends := breakEnds_append_of_not_isBreak hplain []
  rw [List.append_nil] at hends
  rw [lineBegins, hends]
  rfl

theorem lineBegins_of_read?_eq_some {text rest : List Char} {b : LineBreak}
    (hread : LineBreak.read? (afterContent text) = some (b, rest)) :
    lineBegins text =
      0 :: (lineBegins rest).map (· + ((lineContent text).length + b.chars.length)) := by
  have hends := breakEnds_append_of_not_isBreak (lineContent_not_isBreak text) (afterContent text)
  rw [lineContent_append_afterContent, breakEnds_of_read? hread, List.map_map] at hends
  rw [lineBegins, hends]
  simp [Function.comp_def, Nat.add_assoc, Nat.add_comm b.chars.length]

private theorem le_length_of_mem_lineBegins {text : List Char} {start : Nat}
    (hstart : start ∈ lineBegins text) : start ≤ text.length := by
  rcases List.mem_cons.1 hstart with rfl | hend
  · exact Nat.zero_le _
  · have hrange := List.mem_range.1 (List.mem_of_mem_filter hend)
    omega

/-! ## Places of points -/

/-- The walk over the lines of a text ends where the point stands. -/
theorem Point.offsetFrom_eq_add_clamped (before line column : Nat) (text : List Char) :
    Point.offsetFrom before line column text =
      before + (⟨line, column⟩ : Point).clamped text := by
  induction line generalizing before text with
  | zero => simp [Point.offsetFrom, Point.clamped, lineBegins, fitting_eq_add_charsWithin]
  | succ below ih =>
      cases hread : LineBreak.read? (afterContent text) with
      | none =>
          simp [Point.offsetFrom, Point.clamped, hread, lineBegins_of_read?_eq_none hread]
      | some found =>
          obtain ⟨b, rest⟩ := found
          have hlength : text.length =
              (lineContent text).length + b.chars.length + rest.length := by
            rw [← List.length_append, ← List.length_append,
              eq_append_of_read?_afterContent hread]
          rw [Point.offsetFrom, hread]
          dsimp only
          rw [ih, Point.clamped, Point.clamped, lineBegins_of_read?_eq_some hread,
            List.getElem?_cons_succ, List.getElem?_map]
          dsimp only
          cases (lineBegins rest)[below]? with
          | none =>
              simp only [Option.map_none]
              omega
          | some start =>
              simp only [Option.map_some, Nat.add_comm start, drop_firstLine_add hread]
              omega

theorem Point.offset_eq_clamped (point : Point) (text : List Char) :
    point.offset text = point.clamped text := by
  rw [Point.offset, Point.offsetFrom_eq_add_clamped, Nat.zero_add]

theorem Point.clamped_le_length (point : Point) (text : List Char) :
    point.clamped text ≤ text.length := by
  unfold Point.clamped
  split
  · exact Nat.le_refl _
  · next start hstart =>
    have hbegin := le_length_of_mem_lineBegins (List.mem_of_getElem? hstart)
    have hwithin := charsWithin_le_length point.column (lineContent (text.drop start))
    have hcontent : (lineContent (text.drop start)).length ≤ (text.drop start).length :=
      (List.takeWhile_prefix _).length_le
    rw [List.length_drop] at hcontent
    omega

/-- A change of a range puts its text in place of what stands between the places
of the two points, or at the first of them if the second is before it.  Both
places lie in the text. -/
theorem edit_range_eq_splice (text : String) (range : Range) (replacement : String) :
    let start := range.start.clamped text.toList
    let stop := max start (range.stop.clamped text.toList)
    start ≤ stop ∧ stop ≤ text.toList.length ∧
    applyChanges text [⟨some range, replacement⟩] =
      String.ofList (text.toList.take start ++ replacement.toList ++ text.toList.drop stop) ∧
    (edit text [⟨some range, replacement⟩]).2 = [⟨start, stop, replacement.utf8ByteSize⟩] := by
  intro start stop
  have hbounds : range.bounds text.toList = (start, stop) := by
    unfold Range.bounds
    dsimp only
    rw [Point.offset_eq_clamped, Point.offset_eq_clamped]
  refine ⟨Nat.le_max_left _ _, ?_, ?_, ?_⟩
  · exact Nat.max_le.2 ⟨range.start.clamped_le_length _, range.stop.clamped_le_length _⟩
  · have happly : (Change.mk (some range) replacement).apply text.toList =
        text.toList.take start ++ replacement.toList ++ text.toList.drop stop := by
      unfold Change.apply
      dsimp only
      rw [hbounds]
    exact congrArg String.ofList happly
  · have hsplice : (Change.mk (some range) replacement).splice? text.toList =
        some ⟨start, stop, replacement.utf8ByteSize⟩ := by
      unfold Change.splice?
      dsimp only [Option.map_some]
      rw [hbounds]
    have hedit : (edit text [⟨some range, replacement⟩]).2 =
        ((Change.mk (some range) replacement).splice? text.toList).toList := by
      cases hfound : (Change.mk (some range) replacement).splice? text.toList with
      | none => simp [edit, Edited.step, hfound]
      | some splice => simp [edit, Edited.step, hfound]
    rw [hedit, hsplice]
    rfl

/-- Inside a surrogate pair, before a CRLF, on the line below it, and below the last
line. -/
example : [(⟨0, 2⟩ : Point), ⟨0, 9⟩, ⟨1, 1⟩, ⟨2, 0⟩].map (·.clamped "a𝜃\r\nxy".toList) =
    [1, 2, 5, 6] := by
  decide

end QasmHighlight
