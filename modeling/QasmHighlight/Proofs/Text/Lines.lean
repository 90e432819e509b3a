import Mathlib.Data.List.TakeWhile
import QasmHighlight.Text.LineBreak

/-!
# Lines of a text

A text is the content of its first line, the break that ends it and the text
below, or it has no break at all.  A stretch of a text has the same lines as the
text itself, up to its end, unless it ends between the CR and the LF of one
break.
-/

namespace QasmHighlight
namespace Text

/-- The place after `before` lies between the CR and the LF of one break. -/
def SplitsCrlf (before : List Char) (next : Option Char) : Prop :=
  before.getLast? = some '\r' ∧ next = some '\n'

theorem isBreak_eq_false_iff {c : Char} :
    isBreak c = false ↔ c ≠ '\n' ∧ c ≠ '\r' := by
  simp [isBreak]

theorem isBreak_eq_true_iff {c : Char} :
    isBreak c = true ↔ c = '\n' ∨ c = '\r' := by
  simp [isBreak]

/-! ## The break at the front of a text -/

theorem LineBreak.isBreak_of_mem_chars (b : LineBreak) {c : Char} (hc : c ∈ b.chars) :
    isBreak c = true := by
  rw [isBreak_eq_true_iff]
  cases b with
  | lf => exact .inl (List.mem_singleton.1 hc)
  | cr => exact .inr (List.mem_singleton.1 hc)
  | crlf =>
      rcases List.mem_cons.1 hc with hcr | hlf
      · exact .inr hcr
      · exact .inl (List.mem_singleton.1 hlf)

theorem LineBreak.read?_eq_none_iff {text : List Char} :
    LineBreak.read? text = none ↔ ∀ c, text.head? = some c → isBreak c = false := by
  unfold LineBreak.read?
  split
  · simp [isBreak]
  · simp [isBreak]
  · simp [isBreak]
  · next hcrlf hcr hlf =>
    simp only [true_iff]
    intro c hhead
    obtain ⟨rest, rfl⟩ := List.head?_eq_some_iff.1 hhead
    rw [isBreak_eq_false_iff]
    constructor
    · rintro rfl
      exact hlf rest rfl
    · rintro rfl
      exact hcr rest rfl

/-- A break at the front of a stretch is the break at the front of the whole
text, unless the stretch ends inside a CRLF. -/
theorem LineBreak.read?_append
    {text rest following : List Char} {b : LineBreak}
    (hread : LineBreak.read? text = some (b, rest))
    (hwhole : ¬ SplitsCrlf text following.head?) :
    LineBreak.read? (text ++ following) = some (b, rest ++ following) := by
  unfold LineBreak.read? at hread
  split at hread
  · cases hread
    rfl
  · next more hcrlf =>
    cases hread
    rw [List.cons_append, LineBreak.read?]
    intro tail htail
    cases rest with
    | nil =>
        apply hwhole
        rw [List.nil_append] at htail
        rw [htail]
        exact ⟨rfl, rfl⟩
    | cons d more =>
        rw [List.cons_append, List.cons.injEq] at htail
        obtain ⟨rfl, _⟩ := htail
        exact hcrlf more rfl
  · cases hread
    rfl
  · cases hread

/-! ## Content and break of the first line -/

theorem lineContent_not_isBreak (text : List Char) :
    ∀ c ∈ lineContent text, isBreak c = false := by
  intro c hc
  have haccepted := List.mem_takeWhile_imp hc
  simpa using haccepted

theorem not_accepted_of_head?_dropWhile {accept : Char → Bool} {text : List Char} {c : Char}
    (hhead : (text.dropWhile accept).head? = some c) : accept c = false := by
  have hnot := List.head?_dropWhile_not accept text
  rw [hhead] at hnot
  simpa using hnot

theorem afterContent_head?_isBreak {text : List Char} {c : Char}
    (hhead : (afterContent text).head? = some c) : isBreak c = true := by
  simpa using not_accepted_of_head?_dropWhile hhead

theorem afterContent_eq_nil_of_read?_eq_none {text : List Char}
    (hread : LineBreak.read? (afterContent text) = none) : afterContent text = [] := by
  by_contra hne
  obtain ⟨c, rest, hcons⟩ := List.exists_cons_of_ne_nil hne
  have hhead : (afterContent text).head? = some c := by rw [hcons]; rfl
  have hbreak := afterContent_head?_isBreak hhead
  have hnot := LineBreak.read?_eq_none_iff.1 hread c hhead
  rw [hbreak] at hnot
  contradiction

theorem lineContent_eq_self_of_read?_eq_none {text : List Char}
    (hread : LineBreak.read? (afterContent text) = none) : lineContent text = text := by
  have hwhole := lineContent_append_afterContent text
  rw [afterContent_eq_nil_of_read?_eq_none hread, List.append_nil] at hwhole
  exact hwhole

theorem eq_append_of_read?_afterContent {text rest : List Char} {b : LineBreak}
    (hread : LineBreak.read? (afterContent text) = some (b, rest)) :
    lineContent text ++ b.chars ++ rest = text := by
  rw [List.append_assoc, ← LineBreak.eq_of_read? hread, lineContent_append_afterContent]

theorem take_firstLine_add {text rest : List Char} {b : LineBreak}
    (hread : LineBreak.read? (afterContent text) = some (b, rest)) (count : Nat) :
    text.take ((lineContent text).length + b.chars.length + count) =
      lineContent text ++ b.chars ++ rest.take count := by
  have hparts : (lineContent text ++ b.chars ++ rest).take _ = _ :=
    List.take_length_add_append count
  rwa [eq_append_of_read?_afterContent hread, List.length_append] at hparts

theorem drop_firstLine_add {text rest : List Char} {b : LineBreak}
    (hread : LineBreak.read? (afterContent text) = some (b, rest)) (count : Nat) :
    text.drop ((lineContent text).length + b.chars.length + count) = rest.drop count := by
  have hparts : (lineContent text ++ b.chars ++ rest).drop _ = _ :=
    List.drop_length_add_append count
  rwa [eq_append_of_read?_afterContent hread, List.length_append] at hparts

theorem lineContent_append_of_not_isBreak {before : List Char}
    (hbefore : ∀ c ∈ before, isBreak c = false) (rest : List Char) :
    lineContent (before ++ rest) = before ++ lineContent rest := by
  unfold lineContent
  exact List.takeWhile_append_of_pos fun c hc => by simp [hbefore c hc]

theorem afterContent_append_of_not_isBreak {before : List Char}
    (hbefore : ∀ c ∈ before, isBreak c = false) (rest : List Char) :
    afterContent (before ++ rest) = afterContent rest := by
  unfold afterContent
  exact List.dropWhile_append_of_pos fun c hc => by simp [hbefore c hc]

theorem lineContent_eq_nil_of_read? {text rest : List Char} {b : LineBreak}
    (hread : LineBreak.read? text = some (b, rest)) : lineContent text = [] := by
  rw [LineBreak.eq_of_read? hread]
  cases b <;> rfl

theorem afterContent_eq_self_of_read? {text rest : List Char} {b : LineBreak}
    (hread : LineBreak.read? text = some (b, rest)) : afterContent text = text := by
  have hwhole := lineContent_append_afterContent text
  rw [lineContent_eq_nil_of_read? hread, List.nil_append] at hwhole
  exact hwhole

/-- A break is read back from the front of a text, unless it is a CR that an LF
follows. -/
theorem LineBreak.read?_chars_append {b : LineBreak} {rest : List Char}
    (hb : b = .cr → rest.head? ≠ some '\n') :
    LineBreak.read? (b.chars ++ rest) = some (b, rest) := by
  have halone : LineBreak.read? b.chars = some (b, []) := by cases b <;> rfl
  apply LineBreak.read?_append halone
  rintro ⟨hcr, hlf⟩
  cases b with
  | lf => cases hcr
  | cr => exact hb rfl hlf
  | crlf => cases hcr

theorem lineContent_append_chars {content : List Char}
    (hcontent : ∀ c ∈ content, isBreak c = false) (b : LineBreak) (rest : List Char) :
    lineContent (content ++ b.chars ++ rest) = content := by
  have hnone : lineContent (b.chars ++ rest) = [] := by cases b <;> rfl
  rw [List.append_assoc, lineContent_append_of_not_isBreak hcontent, hnone, List.append_nil]

theorem afterContent_append_chars {content : List Char}
    (hcontent : ∀ c ∈ content, isBreak c = false) (b : LineBreak) (rest : List Char) :
    afterContent (content ++ b.chars ++ rest) = b.chars ++ rest := by
  have hall : afterContent (b.chars ++ rest) = b.chars ++ rest := by cases b <;> rfl
  rw [List.append_assoc, afterContent_append_of_not_isBreak hcontent, hall]

theorem read?_afterContent_append_chars {content : List Char}
    (hcontent : ∀ c ∈ content, isBreak c = false) {b : LineBreak} (rest : List Char)
    (hb : b = .cr → rest.head? ≠ some '\n') :
    LineBreak.read? (afterContent (content ++ b.chars ++ rest)) = some (b, rest) := by
  rw [afterContent_append_chars hcontent, LineBreak.read?_chars_append hb]

theorem read?_afterContent_of_not_isBreak {content : List Char}
    (hcontent : ∀ c ∈ content, isBreak c = false) :
    LineBreak.read? (afterContent content) = none := by
  have hnone := afterContent_append_of_not_isBreak hcontent []
  rw [List.append_nil] at hnone
  rw [hnone]
  rfl

theorem SplitsCrlf.append_left {text : List Char} {next : Option Char}
    (before : List Char) (hsplits : SplitsCrlf text next) : SplitsCrlf (before ++ text) next := by
  refine ⟨?_, hsplits.2⟩
  rw [List.getLast?_append, hsplits.1, Option.some_or]

theorem not_splitsCrlf_of_read?_afterContent
    {text rest : List Char} {b : LineBreak} {next : Option Char}
    (hread : LineBreak.read? (afterContent text) = some (b, rest))
    (hwhole : ¬ SplitsCrlf text next) :
    ¬ SplitsCrlf (afterContent text) next ∧ ¬ SplitsCrlf rest next := by
  constructor
  · intro hsplits
    rw [← lineContent_append_afterContent text] at hwhole
    exact hwhole (hsplits.append_left _)
  · intro hsplits
    rw [← eq_append_of_read?_afterContent hread] at hwhole
    exact hwhole (hsplits.append_left _)

/-! ## Cutting a text into lines -/

theorem linesInto_of_read?_eq_none {text : List Char}
    (hread : LineBreak.read? (afterContent text) = none) (done : Array (List Char)) :
    linesInto done text = done.push (lineContent text) := by
  rw [linesInto]
  split
  · rfl
  · next hsome =>
    rw [hread] at hsome
    cases hsome

theorem linesInto_of_read?_eq_some {text rest : List Char} {b : LineBreak}
    (hread : LineBreak.read? (afterContent text) = some (b, rest)) (done : Array (List Char)) :
    linesInto done text = linesInto (done.push (lineContent text)) rest := by
  rw [linesInto]
  split
  · next hnone =>
    rw [hread] at hnone
    cases hnone
  · next hsome =>
    rw [hread] at hsome
    cases hsome
    rfl

private theorem toList_linesInto_append (earlier done : Array (List Char)) (text : List Char) :
    (linesInto (earlier ++ done) text).toList = earlier.toList ++ (linesInto done text).toList := by
  fun_induction linesInto done text with
  | case1 done text hread => simp [linesInto_of_read?_eq_none hread]
  | case2 done text b rest hread ih =>
      rw [linesInto_of_read?_eq_some hread, ← Array.append_push, ih]

theorem lines_of_read?_eq_none {text : List Char}
    (hread : LineBreak.read? (afterContent text) = none) : lines text = [lineContent text] := by
  rw [lines, linesInto_of_read?_eq_none hread]
  rfl

theorem lines_of_read?_eq_some {text rest : List Char} {b : LineBreak}
    (hread : LineBreak.read? (afterContent text) = some (b, rest)) :
    lines text = lineContent text :: lines rest := by
  rw [lines, linesInto_of_read?_eq_some hread]
  exact toList_linesInto_append #[lineContent text] #[] rest

/-- A text is made of lines with breaks between them; no CR is a break of its own
if an LF follows it. -/
inductive LineSplit : List Char → List (List Char) → Prop
  | last {line : List Char} : (∀ c ∈ line, isBreak c = false) → LineSplit line [line]
  | cons {line rest : List Char} {below : List (List Char)} (b : LineBreak) :
      (∀ c ∈ line, isBreak c = false) → (b = .cr → rest.head? ≠ some '\n') →
      LineSplit rest below → LineSplit (line ++ b.chars ++ rest) (line :: below)

theorem lines_eq_of_lineSplit {text : List Char} {pieces : List (List Char)}
    (hsplit : LineSplit text pieces) : lines text = pieces := by
  induction hsplit with
  | last hline =>
      have hread := read?_afterContent_of_not_isBreak hline
      rw [lines_of_read?_eq_none hread, lineContent_eq_self_of_read?_eq_none hread]
  | cons b hline hb _ ih =>
      rw [lines_of_read?_eq_some (read?_afterContent_append_chars hline _ hb),
        lineContent_append_chars hline, ih]

theorem LineBreak.head?_ne_of_read?_eq_cr {text rest : List Char} {b : LineBreak}
    (hread : LineBreak.read? text = some (b, rest)) (hb : b = .cr) : rest.head? ≠ some '\n' := by
  intro hlf
  obtain ⟨more, rfl⟩ := List.head?_eq_some_iff.1 hlf
  have htext := LineBreak.eq_of_read? hread
  subst hb
  subst htext
  cases hread

theorem lineSplit_lines (text : List Char) : LineSplit text (lines text) := by
  induction hlength : text.length using Nat.strong_induction_on generalizing text with
  | _ length ih =>
      cases hread : LineBreak.read? (afterContent text) with
      | none =>
          have hcontent := lineContent_not_isBreak text
          rw [lines_of_read?_eq_none hread]
          rw [lineContent_eq_self_of_read?_eq_none hread] at hcontent ⊢
          exact .last hcontent
      | some found =>
          obtain ⟨b, rest⟩ := found
          have hshorter := length_lt_of_read?_afterContent hread
          have hbelow := ih rest.length (hlength ▸ hshorter) rest rfl
          have hsplit := LineSplit.cons b (lineContent_not_isBreak text)
            (LineBreak.head?_ne_of_read?_eq_cr hread) hbelow
          rwa [eq_append_of_read?_afterContent hread, ← lines_of_read?_eq_some hread] at hsplit

theorem lineSplit_iff {text : List Char} {pieces : List (List Char)} :
    LineSplit text pieces ↔ pieces = lines text := by
  constructor
  · intro hsplit
    exact (lines_eq_of_lineSplit hsplit).symm
  · rintro rfl
    exact lineSplit_lines text

end Text
end QasmHighlight
