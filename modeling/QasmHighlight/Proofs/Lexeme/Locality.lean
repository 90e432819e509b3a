import QasmHighlight.Proofs.Lexeme.Separation

/-!
# What the first piece of a text depends on

Strings and line comments do not go beyond a line break, and everything else but
a block comment not even beyond a blank character or a slash.  So every first
piece but a block comment depends on its own line only.  A block comment that is
closed depends on nothing after its end.
-/

namespace QasmHighlight

open Text

/-! ## Strings and comments -/

namespace Text

theorem lineContent_cons_of_isBreak {c : Char} (hc : isBreak c = true) (rest : List Char) :
    lineContent (c :: rest) = [] := by
  simp [lineContent, hc]

theorem lineContent_cons_of_not_isBreak {c : Char} (hc : isBreak c = false)
    (rest : List Char) : lineContent (c :: rest) = c :: lineContent rest := by
  simp [lineContent, hc]

theorem head?_lineContent_eq_some_iff {c : Char} (hc : isBreak c = false) {text : List Char} :
    (lineContent text).head? = some c ↔ text.head? = some c := by
  cases text with
  | nil => rfl
  | cons d rest =>
      by_cases hd : isBreak d = true
      · have hne : d ≠ c := by
          rintro rfl
          rw [hc] at hd
          contradiction
        simp [lineContent_cons_of_isBreak hd, hne]
      · simp [lineContent_cons_of_not_isBreak (eq_false_of_ne_true hd)]

end Text

namespace Lexeme

theorem closingQuote?_lineContent (before : Nat) (text : List Char) :
    closingQuote? before (lineContent text) = closingQuote? before text := by
  apply Option.ext
  intro count
  rw [closingQuote?_eq_some_iff, closingQuote?_eq_some_iff]
  constructor
  · rintro ⟨body, after, hbody, hline, hcount⟩
    refine ⟨body, after ++ afterContent text, hbody, ?_, hcount⟩
    rw [← List.cons_append, ← List.append_assoc, ← hline, lineContent_append_afterContent]
  · rintro ⟨body, after, hbody, rfl, hcount⟩
    refine ⟨body, lineContent after, hbody, ?_, hcount⟩
    rw [lineContent_append_of_not_isBreak hbody.not_isBreak,
      lineContent_cons_of_not_isBreak (by decide)]

theorem closingQuote?_bounds {before count : Nat} {text : List Char}
    (hfound : closingQuote? before text = some count) :
    before < count ∧ count ≤ before + text.length := by
  obtain ⟨body, after, _, rfl, rfl⟩ := closingQuote?_eq_some_iff.1 hfound
  rw [List.length_append, List.length_cons]
  omega

theorem closingQuote?_append_iff
    {before count : Nat} {text : List Char} (hcount : count ≤ before + text.length)
    (following : List Char) :
    closingQuote? before (text ++ following) = some count ↔
      closingQuote? before text = some count := by
  rw [closingQuote?_eq_some_iff, closingQuote?_eq_some_iff]
  constructor
  · rintro ⟨body, after, hbody, htext, rfl⟩
    have hlength : (body ++ ['"']).length ≤ text.length := by
      rw [List.length_append, List.length_singleton]
      omega
    have hwhole : body ++ ['"'] <+: text ++ following := ⟨after, by simp [htext]⟩
    obtain ⟨rest, hrest⟩ :=
      List.prefix_of_prefix_length_le hwhole (List.prefix_append text following) hlength
    exact ⟨body, rest, hbody, by simp [← hrest], rfl⟩
  · rintro ⟨body, after, hbody, rfl, rfl⟩
    exact ⟨body, after ++ following, hbody, by simp, rfl⟩

theorem commentEnd?_append {before count : Nat} {text : List Char}
    (hfound : commentEnd? before text = some count) (following : List Char) :
    commentEnd? before (text ++ following) = some count := by
  induction text generalizing before with
  | nil => cases hfound
  | cons c rest ih =>
      rw [commentEnd?] at hfound
      rw [List.cons_append, commentEnd?]
      split at hfound
      · next hend =>
        obtain ⟨hstar, hslash⟩ := hend
        have hhead : (rest ++ following).head? = some '/' := by
          rw [List.head?_append, hslash, Option.some_or]
        rw [if_pos ⟨hstar, hhead⟩]
        exact hfound
      · next hnot =>
        have hrest := ih hfound
        have hhead : (rest ++ following).head? = rest.head? := by
          cases rest with
          | nil => cases hfound
          | cons d more => rfl
        rw [hhead, if_neg hnot]
        exact hrest

end Lexeme

/-! ## The first piece -/

namespace Piece

open Lexeme

theorem lineContent_lineContent (text : List Char) :
    lineContent (lineContent text) = lineContent text := by
  have hcontent := lineContent_append_of_not_isBreak (lineContent_not_isBreak text) []
  simpa [lineContent] using hcontent

theorem ofString_lineContent (rest : List Char) : ofString (lineContent rest) = ofString rest := by
  unfold ofString
  rw [closingQuote?_lineContent]
  cases hfound : closingQuote? 0 rest with
  | none => rw [lineContent_lineContent]
  | some count =>
      rw [← closingQuote?_lineContent] at hfound
      have hcount := (closingQuote?_bounds hfound).2
      have htake : (lineContent rest).take count = rest.take count := by
        conv_rhs => rw [← lineContent_append_afterContent rest]
        rw [List.take_append_of_le_length (by omega)]
      simp only [htake]

/-- The character begins a comment when `rest` follows it. -/
def OpensComment (c : Char) (rest : List Char) : Prop :=
  c = '/' ∧ (rest.head? = some '/' ∨ rest.head? = some '*')

theorem first_eq_of_not_opensComment {c : Char} {rest : List Char}
    (hopens : ¬ OpensComment c rest) :
    first c rest =
      if isBlank c then .space c
      else if c = '"' then ofString rest
      else if Numeral.begins c rest then .lexeme .number (Numeral.read (c :: rest))
      else if c = '$' ∧ rest.head?.any Char.isDigit then
        .lexeme .hardwareQubit (c :: rest.takeWhile Char.isDigit)
      else if (c = '#' ∧ rest.head?.any startsName) ∨ startsName c then
        .lexeme .word (c :: rest.takeWhile continuesName)
      else ofSymbol c rest := by
  have hline : ¬ (c = '/' ∧ rest.head? = some '/') := fun h => hopens ⟨h.1, .inl h.2⟩
  have hblock : ¬ (c = '/' ∧ rest.head? = some '*') := fun h => hopens ⟨h.1, .inr h.2⟩
  rw [first, if_neg hline, if_neg hblock]

theorem OpensComment.append {c : Char} {rest : List Char} (hopens : OpensComment c rest)
    (following : List Char) : OpensComment c (rest ++ following) := by
  obtain ⟨hslash, hnext⟩ := hopens
  refine ⟨hslash, ?_⟩
  rcases hnext with hnext | hnext
  · exact .inl (by rw [List.head?_append, hnext, Option.some_or])
  · exact .inr (by rw [List.head?_append, hnext, Option.some_or])

/-- Outside of strings and comments nothing after a separator bears on the
first piece. -/
theorem first_append_of_separated
    {c : Char} {rest following : List Char} (hfollowing : Separated following)
    (hquote : c ≠ '"') (hopens : ¬ OpensComment c (rest ++ following)) :
    first c (rest ++ following) = first c rest := by
  have hopens' : ¬ OpensComment c rest := fun h => hopens (h.append following)
  have hread := Numeral.read_append hfollowing (c :: rest)
  rw [List.cons_append] at hread
  rw [first_eq_of_not_opensComment hopens, first_eq_of_not_opensComment hopens',
    if_neg hquote, if_neg hquote, Numeral.begins_append hfollowing, hread,
    endsAtSeparator_isDigit.append_head?_any hfollowing,
    endsAtSeparator_isDigit.takeWhile_append hfollowing,
    endsAtSeparator_startsName.append_head?_any hfollowing,
    endsAtSeparator_continuesName.takeWhile_append hfollowing,
    ofSymbol, leadingOperator?_append hfollowing, ofSymbol]

/-- A first piece that is no block comment depends on its line only. -/
theorem first_lineContent {c : Char} {rest : List Char}
    (hblock : ¬ (c = '/' ∧ rest.head? = some '*')) :
    first c (lineContent rest) = first c rest := by
  have hslash : isBreak '/' = false := by decide
  by_cases hquote : c = '"'
  · subst hquote
    have hopens : ∀ text, ¬ OpensComment '"' text := by
      rintro text ⟨hc, _⟩
      cases hc
    rw [first_eq_of_not_opensComment (hopens _), first_eq_of_not_opensComment (hopens _),
      if_pos rfl, if_pos rfl, ofString_lineContent]
  · by_cases hline : c = '/' ∧ rest.head? = some '/'
    · obtain ⟨rfl, hhead⟩ := hline
      obtain ⟨more, rfl⟩ := List.head?_eq_some_iff.1 hhead
      rw [lineContent_cons_of_not_isBreak hslash]
      simp [first, lineContent_cons_of_not_isBreak hslash, lineContent_lineContent]
    · have hopens : ¬ OpensComment c rest := by
        rintro ⟨hc, hhead | hhead⟩
        · exact hline ⟨hc, hhead⟩
        · exact hblock ⟨hc, hhead⟩
      have hwhole := lineContent_append_afterContent rest
      rw [← hwhole] at hopens
      have hfirst := first_append_of_separated (separated_afterContent rest) hquote hopens
      rw [hwhole] at hfirst
      exact hfirst.symm

theorem first_eq_of_lineContent_eq {c : Char} {rest rest' : List Char}
    (hline : lineContent rest = lineContent rest')
    (hblock : ¬ (c = '/' ∧ rest.head? = some '*')) : first c rest = first c rest' := by
  have hstar : isBreak '*' = false := by decide
  have hblock' : ¬ (c = '/' ∧ rest'.head? = some '*') := by
    rw [← head?_lineContent_eq_some_iff hstar, ← hline, head?_lineContent_eq_some_iff hstar]
    exact hblock
  rw [← first_lineContent hblock, hline, first_lineContent hblock']

theorem first_slash_star (more : List Char) : first '/' ('*' :: more) = ofComment more := rfl

theorem ofComment_append {more : List Char} {count : Nat}
    (hclosed : commentEnd? 0 more = some count) (following : List Char) :
    ofComment (more ++ following) = ofComment more := by
  obtain ⟨inside, after, rfl, rfl⟩ := exists_append_of_commentEnd? hclosed
  have hlength : 0 + inside.length + 2 ≤ (inside ++ '*' :: '/' :: after).length := by
    simp only [List.length_append, List.length_cons]
    omega
  unfold ofComment
  rw [commentEnd?_append hclosed, hclosed]
  simp only [List.take_append_of_le_length hlength]

end Piece
end QasmHighlight
