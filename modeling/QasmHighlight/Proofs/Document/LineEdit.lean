import QasmHighlight.Proofs.Document.Batches
import QasmHighlight.Proofs.Document.Clamping

/-!
# Edits of single lines

A change whose two points are on one line, and whose text has no line break in
it, changes the content of that line.  As long as every CR belongs to a CRLF it
changes nothing else: no break comes or goes, and every other line keeps its
number and its content.  Two such changes on different lines can therefore be
made in either order, although the second is always resolved against what the
first one leaves.
-/

namespace QasmHighlight

open Text

namespace Text

/-- Every CR of the text belongs to a CRLF. -/
def CrlfOnly (text : List Char) : Prop :=
  ∀ i : Nat, text[i]? = some '\r' → text[i + 1]? = some '\n'

theorem CrlfOnly.of_append {before rest : List Char} (hcrlf : CrlfOnly (before ++ rest)) :
    CrlfOnly rest := by
  intro i hcr
  have hthere := hcrlf (before.length + i)
  rw [Nat.add_assoc, List.getElem?_append_right (Nat.le_add_right _ _),
    List.getElem?_append_right (Nat.le_add_right _ _), Nat.add_sub_cancel_left,
    Nat.add_sub_cancel_left] at hthere
  exact hthere hcr

private theorem CrlfOnly.read?_ne_cr {text rest : List Char} {b : LineBreak} (hcrlf : CrlfOnly text)
    (hread : LineBreak.read? text = some (b, rest)) : b ≠ .cr := by
  rintro rfl
  obtain rfl := LineBreak.eq_of_read? hread
  have hlf : rest[0]? = some '\n' := hcrlf 0 rfl
  exact LineBreak.head?_ne_of_read?_eq_cr hread rfl (List.head?_eq_getElem?.trans hlf)

theorem CrlfOnly.of_read?_afterContent {text rest : List Char} {b : LineBreak}
    (hcrlf : CrlfOnly text) (hread : LineBreak.read? (afterContent text) = some (b, rest)) :
    b ≠ .cr ∧ CrlfOnly rest := by
  constructor
  · rw [← lineContent_append_afterContent text] at hcrlf
    exact hcrlf.of_append.read?_ne_cr hread
  · rw [← eq_append_of_read?_afterContent hread] at hcrlf
    exact hcrlf.of_append

end Text

/-- What is done to the content of a line.  It brings no break into the line. -/
structure LineEdit where
  run : List Char → List Char
  run_not_isBreak : ∀ content, (∀ c ∈ content, isBreak c = false) →
    ∀ c ∈ run content, isBreak c = false

namespace LineEdit

/-- The text with the content of one line edited.  Without such a line it stays as
it is. -/
def apply (lineEdit : LineEdit) (line : Nat) (text : List Char) : List Char :=
  match line with
  | 0 => lineEdit.run (lineContent text) ++ afterContent text
  | below + 1 =>
    match LineBreak.read? (afterContent text) with
    | none => text
    | some (b, rest) => lineContent text ++ b.chars ++ lineEdit.apply below rest

/-- Puts `replacement` in place of what stands between two columns. -/
def splice (start stop : Nat) (replacement : List Char)
    (hreplacement : ∀ c ∈ replacement, isBreak c = false) : LineEdit where
  run content :=
    content.take (charsWithin start content) ++ replacement ++
      content.drop (max (charsWithin start content) (charsWithin stop content))
  run_not_isBreak := by
    intro content hcontent c hc
    rw [List.mem_append, List.mem_append] at hc
    rcases hc with (hbefore | hnew) | hafter
    · exact hcontent c (List.mem_of_mem_take hbefore)
    · exact hreplacement c hnew
    · exact hcontent c (List.mem_of_mem_drop hafter)

variable (lineEdit : LineEdit) {text rest : List Char} {b : LineBreak}

theorem apply_zero_of_read?_eq_none (hread : LineBreak.read? (afterContent text) = none) :
    lineEdit.apply 0 text = lineEdit.run (lineContent text) := by
  rw [apply, afterContent_eq_nil_of_read?_eq_none hread, List.append_nil]

theorem apply_zero_of_read?_eq_some
    (hread : LineBreak.read? (afterContent text) = some (b, rest)) :
    lineEdit.apply 0 text = lineEdit.run (lineContent text) ++ b.chars ++ rest := by
  rw [apply, LineBreak.eq_of_read? hread, List.append_assoc]

theorem apply_succ_of_read?_eq_none (hread : LineBreak.read? (afterContent text) = none)
    (below : Nat) : lineEdit.apply (below + 1) text = text := by
  rw [apply, hread]

theorem apply_succ_of_read?_eq_some
    (hread : LineBreak.read? (afterContent text) = some (b, rest)) (below : Nat) :
    lineEdit.apply (below + 1) text =
      lineContent text ++ b.chars ++ lineEdit.apply below rest := by
  rw [apply, hread]

private theorem run_lineContent_not_isBreak (text : List Char) :
    ∀ c ∈ lineEdit.run (lineContent text), isBreak c = false :=
  lineEdit.run_not_isBreak _ (lineContent_not_isBreak text)

/-- Editing a line changes the content of that line and keeps every other. -/
theorem lines_apply (hcrlf : CrlfOnly text) (line : Nat) :
    lines (lineEdit.apply line text) = (lines text).modify line lineEdit.run := by
  induction line generalizing text with
  | zero =>
      have hplain := lineEdit.run_lineContent_not_isBreak text
      cases hread : LineBreak.read? (afterContent text) with
      | none =>
          have hnone := read?_afterContent_of_not_isBreak hplain
          rw [lineEdit.apply_zero_of_read?_eq_none hread, lines_of_read?_eq_none hnone,
            lines_of_read?_eq_none hread, lineContent_eq_self_of_read?_eq_none hnone]
          rfl
      | some found =>
          obtain ⟨b, rest⟩ := found
          obtain ⟨hb, _⟩ := hcrlf.of_read?_afterContent hread
          have hagain := read?_afterContent_append_chars hplain rest (absurd · hb)
          rw [lineEdit.apply_zero_of_read?_eq_some hread, lines_of_read?_eq_some hagain,
            lines_of_read?_eq_some hread, lineContent_append_chars hplain]
          rfl
  | succ below ih =>
      cases hread : LineBreak.read? (afterContent text) with
      | none =>
          rw [lineEdit.apply_succ_of_read?_eq_none hread, lines_of_read?_eq_none hread]
          simp
      | some found =>
          obtain ⟨b, rest⟩ := found
          obtain ⟨hb, hrest⟩ := hcrlf.of_read?_afterContent hread
          have hplain := lineContent_not_isBreak text
          have hagain :=
            read?_afterContent_append_chars hplain (lineEdit.apply below rest) (absurd · hb)
          rw [lineEdit.apply_succ_of_read?_eq_some hread, lines_of_read?_eq_some hagain,
            lines_of_read?_eq_some hread, lineContent_append_chars hplain, ih hrest]
          rfl

/-- Editing the first line and editing a later one do not meet.  The break between
them stays the one of the text. -/
theorem apply_zero_comm (other : LineEdit) (text : List Char) (below : Nat) :
    lineEdit.apply 0 (other.apply (below + 1) text) =
      other.apply (below + 1) (lineEdit.apply 0 text) := by
  have hplain := lineEdit.run_lineContent_not_isBreak text
  cases hread : LineBreak.read? (afterContent text) with
  | none =>
      rw [other.apply_succ_of_read?_eq_none hread, lineEdit.apply_zero_of_read?_eq_none hread,
        other.apply_succ_of_read?_eq_none (read?_afterContent_of_not_isBreak hplain)]
  | some found =>
      obtain ⟨b, rest⟩ := found
      have hcontent := lineContent_not_isBreak text
      have hedited := lineEdit.apply_zero_of_read?_eq_some hread
      have hagain : LineBreak.read? (afterContent (lineEdit.apply 0 text)) = some (b, rest) := by
        rw [apply, afterContent_append_of_not_isBreak hplain,
          afterContent_eq_self_of_read? hread, hread]
      rw [other.apply_succ_of_read?_eq_some hread, other.apply_succ_of_read?_eq_some hagain,
        hedited, apply, lineContent_append_chars hcontent, afterContent_append_chars hcontent,
        lineContent_append_chars hplain, List.append_assoc]

/-- Edits of different lines commute.  A CR on its own is excluded: taking out all
of the line below it would join it with the LF that ends that line. -/
theorem apply_comm (other : LineEdit) (hcrlf : CrlfOnly text) {line below : Nat}
    (hne : line ≠ below) :
    lineEdit.apply line (other.apply below text) =
      other.apply below (lineEdit.apply line text) := by
  induction line generalizing below text with
  | zero =>
      obtain ⟨below, rfl⟩ := Nat.exists_eq_succ_of_ne_zero (Ne.symm hne)
      exact lineEdit.apply_zero_comm other text below
  | succ line ih =>
      cases below with
      | zero => exact (other.apply_zero_comm lineEdit text line).symm
      | succ below =>
          cases hread : LineBreak.read? (afterContent text) with
          | none =>
              rw [other.apply_succ_of_read?_eq_none hread,
                lineEdit.apply_succ_of_read?_eq_none hread,
                other.apply_succ_of_read?_eq_none hread]
          | some found =>
              obtain ⟨b, rest⟩ := found
              obtain ⟨hb, hrest⟩ := hcrlf.of_read?_afterContent hread
              have hcontent := lineContent_not_isBreak text
              have hreadOther :=
                read?_afterContent_append_chars hcontent (other.apply below rest) (absurd · hb)
              have hreadEdit :=
                read?_afterContent_append_chars hcontent (lineEdit.apply line rest) (absurd · hb)
              rw [other.apply_succ_of_read?_eq_some hread,
                lineEdit.apply_succ_of_read?_eq_some hread,
                lineEdit.apply_succ_of_read?_eq_some hreadOther,
                other.apply_succ_of_read?_eq_some hreadEdit,
                lineContent_append_chars hcontent, lineContent_append_chars hcontent,
                ih hrest (fun heq => hne (congrArg Nat.succ heq))]

end LineEdit

/-! ## Changes on one line -/

private theorem Point.offset_zero (column : Nat) (text : List Char) :
    (⟨0, column⟩ : Point).offset text = charsWithin column (lineContent text) := by
  rw [Point.offset, Point.offsetFrom, fitting_eq_add_charsWithin, Nat.zero_add]

private theorem Point.offset_succ_of_read? {text rest : List Char} {b : LineBreak}
    (hread : LineBreak.read? (afterContent text) = some (b, rest)) (below column : Nat) :
    (⟨below + 1, column⟩ : Point).offset text =
      (lineContent text).length + b.chars.length + (⟨below, column⟩ : Point).offset rest := by
  rw [Point.offset, Point.offsetFrom, hread]
  dsimp only
  rw [Point.offsetFrom_eq_add_clamped, Point.offset_eq_clamped, Nat.zero_add]

/-- The change that puts `replacement` in place of what stands between two columns
of a line. -/
def Change.onLine (line start stop : Nat) (replacement : String) : Change :=
  ⟨some ⟨⟨line, start⟩, ⟨line, stop⟩⟩, replacement⟩

private theorem Change.apply_onLine_eq_take_drop (line start stop : Nat) (replacement : String)
    (text : List Char) :
    (Change.onLine line start stop replacement).apply text =
      text.take ((⟨line, start⟩ : Point).offset text) ++ replacement.toList ++
        text.drop (max ((⟨line, start⟩ : Point).offset text)
          ((⟨line, stop⟩ : Point).offset text)) := rfl

/-- A change on one line of a text edits the content of that line. -/
theorem Change.apply_onLine {text : List Char} {line : Nat} (hline : line < (lines text).length)
    (start stop : Nat) {replacement : String}
    (hreplacement : ∀ c ∈ replacement.toList, isBreak c = false) :
    (Change.onLine line start stop replacement).apply text =
      (LineEdit.splice start stop replacement.toList hreplacement).apply line text := by
  induction line generalizing text with
  | zero =>
      have hstart := charsWithin_le_length start (lineContent text)
      have hstop := Nat.max_le.2 ⟨hstart, charsWithin_le_length stop (lineContent text)⟩
      have htake : (lineContent text ++ afterContent text).take _ = _ :=
        List.take_append_of_le_length hstart
      have hdrop : (lineContent text ++ afterContent text).drop _ = _ :=
        List.drop_append_of_le_length hstop
      rw [lineContent_append_afterContent] at htake hdrop
      rw [Change.apply_onLine_eq_take_drop, Point.offset_zero, Point.offset_zero, htake, hdrop,
        ← List.append_assoc]
      rfl
  | succ below ih =>
      cases hread : LineBreak.read? (afterContent text) with
      | none =>
          rw [lines_of_read?_eq_none hread] at hline
          exact absurd (Nat.lt_of_succ_lt_succ hline) (Nat.not_lt_zero below)
      | some found =>
          obtain ⟨b, rest⟩ := found
          have hbelow : below < (lines rest).length := by
            rw [lines_of_read?_eq_some hread] at hline
            exact Nat.lt_of_succ_lt_succ hline
          rw [LineEdit.apply_succ_of_read?_eq_some _ hread, ← ih hbelow,
            Change.apply_onLine_eq_take_drop, Change.apply_onLine_eq_take_drop,
            Point.offset_succ_of_read? hread, Point.offset_succ_of_read? hread,
            Nat.add_max_add_left, take_firstLine_add hread, drop_firstLine_add hread]
          simp only [List.append_assoc]

/-- Changes on two lines of a text can be made in either order.  Their columns are
arbitrary and their texts have no line break; every CR of the text belongs to a
CRLF. -/
theorem applyChanges_onLine_comm {text : String}
    (hcrlf : ∀ i : Nat, text.toList[i]? = some '\r' → text.toList[i + 1]? = some '\n')
    {line other : Nat} (hline : line < (lines text.toList).length)
    (hother : other < (lines text.toList).length) (hne : line ≠ other)
    (start stop otherStart otherStop : Nat) {replacement otherReplacement : String}
    (hreplacement : ∀ c ∈ replacement.toList, c ≠ '\n' ∧ c ≠ '\r')
    (hotherReplacement : ∀ c ∈ otherReplacement.toList, c ≠ '\n' ∧ c ≠ '\r') :
    applyChanges text
        [.onLine line start stop replacement,
          .onLine other otherStart otherStop otherReplacement] =
      applyChanges text
        [.onLine other otherStart otherStop otherReplacement,
          .onLine line start stop replacement] := by
  have hplain : ∀ c ∈ replacement.toList, isBreak c = false :=
    fun c hc => isBreak_eq_false_iff.2 (hreplacement c hc)
  have hotherPlain : ∀ c ∈ otherReplacement.toList, isBreak c = false :=
    fun c hc => isBreak_eq_false_iff.2 (hotherReplacement c hc)
  have hkept : ∀ (lineEdit : LineEdit) (edited : Nat),
      (lines (lineEdit.apply edited text.toList)).length = (lines text.toList).length := by
    intro lineEdit edited
    rw [lineEdit.lines_apply hcrlf, List.length_modify]
  rw [applyChanges_eq_foldl_apply, applyChanges_eq_foldl_apply]
  simp only [List.foldl_cons, List.foldl_nil]
  rw [Change.apply_onLine hline start stop hplain,
    Change.apply_onLine hother otherStart otherStop hotherPlain,
    Change.apply_onLine ((hkept _ _).symm ▸ hother) otherStart otherStop hotherPlain,
    Change.apply_onLine ((hkept _ _).symm ▸ hline) start stop hplain,
    LineEdit.apply_comm _ _ hcrlf hne]

/-- A reversed range inside a surrogate pair above a CRLF, and the whole of the line
below it. -/
theorem applyChanges_onLine_comm_surrogate :
    applyChanges "a𝜃\r\nxy\n" [.onLine 0 2 1 "π", .onLine 1 0 99 ""] =
        applyChanges "a𝜃\r\nxy\n" [.onLine 1 0 99 "", .onLine 0 2 1 "π"] ∧
      applyChanges "a𝜃\r\nxy\n" [.onLine 0 2 1 "π", .onLine 1 0 99 ""] = "aπ𝜃\r\n\n" := by
  have hinside : ∀ i < "a𝜃\r\nxy\n".toList.length,
      "a𝜃\r\nxy\n".toList[i]? = some '\r' → "a𝜃\r\nxy\n".toList[i + 1]? = some '\n' := by
    decide
  have hcrlf : ∀ i : Nat,
      "a𝜃\r\nxy\n".toList[i]? = some '\r' → "a𝜃\r\nxy\n".toList[i + 1]? = some '\n' := by
    intro i hcr
    exact hinside i (List.getElem?_eq_some_iff.1 hcr).1 hcr
  have hcount : (lines "a𝜃\r\nxy\n".toList).length = 3 := by decide +kernel
  refine ⟨applyChanges_onLine_comm hcrlf ?_ ?_ (by decide) _ _ _ _ (by simp) (by simp), ?_⟩
  · rw [hcount]
    decide
  · rw [hcount]
    decide
  · decide

/-- With a CR on its own the order matters: emptying the line between it and the LF
joins the two. -/
example : applyChanges "a\rb\nc" [.onLine 1 0 1 "", .onLine 2 0 1 ""] ≠
    applyChanges "a\rb\nc" [.onLine 2 0 1 "", .onLine 1 0 1 ""] := by
  decide

end QasmHighlight
