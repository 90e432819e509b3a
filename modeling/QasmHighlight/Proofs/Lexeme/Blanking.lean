import QasmHighlight.Proofs.Lexeme.Locality
import QasmHighlight.Proofs.Lexeme.PlainPiece

/-!
# Blanks in the place of comments

A text in which every comment is overwritten by blanks has the pieces of the
original, at the same positions, except the comments.  Where a comment begins,
there is now a blank, and to all pieces before it a blank is like the slash of a
comment: neither of them goes on with a numeral, a name or an operator.
-/

namespace QasmHighlight

open Text

namespace Text

def spaces (c : Char) : List Char :=
  List.replicate (width c) ' '

/-- A text with all its characters overwritten but the line breaks. -/
def blankOut (text : List Char) : List Char :=
  text.flatMap fun c => if isBreak c then [c] else spaces c

theorem blankOut_cons_of_isBreak {c : Char} (hc : isBreak c = true) (rest : List Char) :
    blankOut (c :: rest) = c :: blankOut rest := by
  simp [blankOut, hc]

theorem blankOut_cons_of_not_isBreak {c : Char} (hc : isBreak c = false) (rest : List Char) :
    blankOut (c :: rest) = spaces c ++ blankOut rest := by
  simp [blankOut, hc]

theorem blankOut_append (a b : List Char) : blankOut (a ++ b) = blankOut a ++ blankOut b :=
  List.flatMap_append

private theorem eq_of_mem_spaces {c d : Char} (hd : d ∈ spaces c) : d = ' ' :=
  List.eq_of_mem_replicate hd

private theorem head?_spaces (c : Char) : (spaces c).head? = some ' ' := by
  have hpos := width_pos c
  rw [spaces, List.head?_replicate, if_neg (by omega)]

private theorem units_spaces (c : Char) : units (spaces c) = width c := by
  have hreplicate : ∀ count, units (List.replicate count ' ') = count := by
    intro count
    induction count with
    | zero => rfl
    | succ count ih =>
        have hwidth : width ' ' = 1 := rfl
        rw [List.replicate_succ, units_cons, ih, hwidth, Nat.add_comm]
  exact hreplicate (width c)

theorem isBlank_of_mem_blankOut {text : List Char} {d : Char} (hd : d ∈ blankOut text) :
    isBlank d = true := by
  obtain ⟨c, _, hd⟩ := List.mem_flatMap.1 hd
  split at hd
  · next hc =>
    rw [List.mem_singleton.1 hd]
    exact isBlank_of_isBreak hc
  · rw [eq_of_mem_spaces hd]
    decide

/-! ## Positions -/

theorem Position.step_congr (p : Position) (c : Char) {next next' : Option Char}
    (hnext : next = some '\n' ↔ next' = some '\n') : p.step c next = p.step c next' := by
  unfold Position.step
  simp only [ne_eq, hnext]

theorem Position.after_congr (p : Position) (text : List Char) {next next' : Option Char}
    (hnext : next = some '\n' ↔ next' = some '\n') : p.after text next = p.after text next' := by
  induction text generalizing p with
  | nil => rfl
  | cons c rest ih =>
      have hhead : rest.head?.or next = some '\n' ↔ rest.head?.or next' = some '\n' := by
        cases rest with
        | nil => exact hnext
        | cons d more => rfl
      rw [Position.after_cons, Position.after_cons, p.step_congr c hhead, ih]

theorem head?_blankOut_or_eq_lf_iff (text : List Char) {next next' : Option Char}
    (hnext : next = some '\n' ↔ next' = some '\n') :
    text.head?.or next = some '\n' ↔ (blankOut text).head?.or next' = some '\n' := by
  cases text with
  | nil => exact hnext
  | cons c rest =>
      by_cases hc : isBreak c = true
      · rw [blankOut_cons_of_isBreak hc]
        rfl
      · have hplain : isBreak c = false := eq_false_of_ne_true hc
        have hlf : c ≠ '\n' := (isBreak_eq_false_iff.1 hplain).1
        rw [blankOut_cons_of_not_isBreak hplain, List.head?_append, head?_spaces]
        simp [hlf]

/-- Blanks in the place of a text lead to where the text leads. -/
theorem Position.after_blankOut (p : Position) (text : List Char) {next next' : Option Char}
    (hnext : next = some '\n' ↔ next' = some '\n') :
    p.after (blankOut text) next' = p.after text next := by
  induction text generalizing p with
  | nil => rfl
  | cons c rest ih =>
      have hhead := head?_blankOut_or_eq_lf_iff rest hnext
      by_cases hc : isBreak c = true
      · rw [blankOut_cons_of_isBreak hc, Position.after_cons, Position.after_cons, ih,
          p.step_congr c hhead]
      · have hplain : isBreak c = false := eq_false_of_ne_true hc
        have hspaces : ∀ d ∈ spaces c, isBreak d = false := by
          intro d hd
          rw [eq_of_mem_spaces hd]
          decide
        rw [blankOut_cons_of_not_isBreak hplain, Position.after_append,
          Position.after_of_forall_not_isBreak p hspaces, units_spaces, ih, Position.after_cons,
          Position.step_of_not_isBreak p hplain]

end Text

namespace Piece

open Lexeme

def isComment : Piece → Bool
  | .lexeme .comment _ => true
  | .blockComment _ _ => true
  | _ => false

def blanked (piece : Piece) : List Char :=
  if piece.isComment then blankOut piece.text else piece.text

/-- The text with its comments overwritten, when its first piece is at `p`. -/
def blankedFrom (p : Position) (source : List Char) : List Char :=
  (placed p source).flatMap fun x => x.2.blanked

theorem isComment_first_iff (c : Char) (rest : List Char) :
    (first c rest).isComment = true ↔ OpensComment c rest := by
  by_cases hopens : OpensComment c rest
  · refine iff_of_true ?_ hopens
    obtain ⟨rfl, hhead | hhead⟩ := hopens
    · obtain ⟨more, rfl⟩ := List.head?_eq_some_iff.1 hhead
      rfl
    · obtain ⟨more, rfl⟩ := List.head?_eq_some_iff.1 hhead
      rw [first_slash_star, ofComment]
      split <;> rfl
  · refine iff_of_false ?_ hopens
    rw [first_eq_of_not_opensComment hopens]
    unfold ofString ofSymbol
    repeat' split
    all_goals simp [isComment]

theorem exists_text_first_eq_cons (c : Char) (rest : List Char) :
    ∃ inside, (first c rest).text = c :: inside := by
  obtain ⟨d, inside, htext⟩ := List.exists_cons_of_ne_nil (text_first_ne_nil c rest)
  have hhead := isPrefix_first c rest
  rw [htext] at hhead
  obtain ⟨rfl, _⟩ := List.cons_prefix_cons.1 hhead
  exact ⟨inside, htext⟩

/-! ## Up to a comment the two texts are the same -/

/-- The second text is the first up to a slash, where it has a blank, or is the
whole of it. -/
def SameToSlash (text text' : List Char) : Prop :=
  ∃ shared rest rest', text = shared ++ rest ∧ text' = shared ++ rest' ∧
    ((rest = [] ∧ rest' = []) ∨ (rest.head? = some '/' ∧ rest'.head? = some ' '))

theorem SameToSlash.append {text text' : List Char} (hsame : SameToSlash text text')
    (before : List Char) : SameToSlash (before ++ text) (before ++ text') := by
  obtain ⟨shared, rest, rest', rfl, rfl, hrest⟩ := hsame
  refine ⟨before ++ shared, rest, rest', ?_, ?_, hrest⟩
  · rw [List.append_assoc]
  · rw [List.append_assoc]

private theorem SameToSlash.head?_cases {text text' : List Char} (hsame : SameToSlash text text') :
    text.head? = text'.head? ∨ text.head? = some '/' ∧ text'.head? = some ' ' := by
  obtain ⟨shared, rest, rest', rfl, rfl, hrest⟩ := hsame
  cases shared with
  | cons c more => exact .inl rfl
  | nil =>
      rcases hrest with ⟨rfl, rfl⟩ | hheads
      · exact .inl rfl
      · exact .inr hheads

theorem SameToSlash.head?_eq_iff {text text' : List Char} (hsame : SameToSlash text text')
    {c : Char} (hslash : c ≠ '/') (hspace : c ≠ ' ') :
    text.head? = some c ↔ text'.head? = some c := by
  rcases hsame.head?_cases with heq | ⟨htext, htext'⟩
  · rw [heq]
  · simp [htext, htext', hslash.symm, hspace.symm]

theorem sameToSlash_blankedFrom (p : Position) (source : List Char) :
    SameToSlash source (blankedFrom p source) := by
  unfold blankedFrom
  fun_induction placed p source with
  | case1 p => exact ⟨[], [], [], rfl, rfl, .inl ⟨rfl, rfl⟩⟩
  | case2 p c rest piece remaining ih =>
      have hsource : c :: rest = piece.text ++ remaining := (text_first_append_drop c rest).symm
      rw [List.flatMap_cons, blanked]
      by_cases hcomment : piece.isComment = true
      · obtain ⟨rfl, _⟩ := (isComment_first_iff c rest).1 hcomment
        obtain ⟨inside, hinside⟩ := exists_text_first_eq_cons '/' rest
        refine ⟨[], '/' :: rest, _, rfl, rfl, .inr ⟨rfl, ?_⟩⟩
        rw [if_pos hcomment, hinside, blankOut_cons_of_not_isBreak (by decide)]
        rfl
      · rw [if_neg hcomment, hsource]
        exact ih.append piece.text

/-! ## The first piece before a comment and before a blank -/

theorem SameToSlash.opensComment {c : Char} {rest rest' : List Char}
    (hsame : SameToSlash rest rest') (hopens : OpensComment c rest') : OpensComment c rest := by
  obtain ⟨hslash, hnext⟩ := hopens
  rcases hsame.head?_cases with heq | ⟨_, hspace⟩
  · rw [← heq] at hnext
    exact ⟨hslash, hnext⟩
  · rw [hspace] at hnext
    simp at hnext

theorem SameToSlash.first_eq {c : Char} {rest rest' : List Char} (hsame : SameToSlash rest rest')
    (hquote : c ≠ '"') (hopens : ¬ OpensComment c rest) : first c rest' = first c rest := by
  have hopens' : ¬ OpensComment c rest' := fun h => hopens (hsame.opensComment h)
  obtain ⟨shared, tail, tail', rfl, rfl, htails⟩ := hsame
  rcases htails with ⟨rfl, rfl⟩ | ⟨hslash, hspace⟩
  · rfl
  · have hseparated : Separated tail := by
      intro d hd
      rw [hslash, Option.some.injEq] at hd
      exact .inr hd.symm
    have hseparated' : Separated tail' := by
      intro d hd
      rw [hspace, Option.some.injEq] at hd
      subst hd
      exact .inl (by decide)
    rw [first_append_of_separated hseparated hquote hopens,
      first_append_of_separated hseparated' hquote hopens']

private theorem SameToSlash.lineContent_eq_nil {text text' : List Char}
    (hsame : SameToSlash text text')
    (hline : lineContent text = []) : lineContent text' = [] := by
  obtain ⟨shared, rest, rest', rfl, rfl, hrest⟩ := hsame
  cases shared with
  | cons c more =>
      by_cases hc : isBreak c = true
      · exact lineContent_cons_of_isBreak hc _
      · rw [List.cons_append, lineContent_cons_of_not_isBreak (eq_false_of_ne_true hc)] at hline
        cases hline
  | nil =>
      rcases hrest with ⟨rfl, rfl⟩ | ⟨hslash, _⟩
      · rfl
      · obtain ⟨more, rfl⟩ := List.head?_eq_some_iff.1 hslash
        rw [List.nil_append, lineContent_cons_of_not_isBreak (by decide)] at hline
        cases hline

/-- A string is the same before all texts that go on the line or end it alike. -/
theorem ofString_of_sameToSlash
    {inside remaining remaining' : List Char} (hsame : SameToSlash remaining remaining')
    (htext : (ofString (inside ++ remaining)).text = '"' :: inside) :
    ofString (inside ++ remaining') = ofString (inside ++ remaining) := by
  unfold ofString at htext ⊢
  cases hquote : closingQuote? 0 (inside ++ remaining) with
  | some count =>
      simp only [hquote, text, List.cons.injEq, true_and] at htext
      have hbounds := closingQuote?_bounds hquote
      have hlength := congrArg List.length htext
      rw [List.length_take] at hlength
      have hcount : count ≤ 0 + inside.length := by omega
      have hinside := (closingQuote?_append_iff hcount remaining).1 hquote
      rw [(closingQuote?_append_iff hcount remaining').2 hinside]
      simp only [List.take_append_of_le_length (show count ≤ inside.length by omega)]
  | none =>
      simp only [hquote, text, List.cons.injEq, true_and] at htext
      have hinside : ∀ c ∈ inside, isBreak c = false := by
        rw [← htext]
        exact lineContent_not_isBreak _
      rw [lineContent_append_of_not_isBreak hinside] at htext
      have hline : lineContent remaining = [] := by simpa using htext
      have hline' := hsame.lineContent_eq_nil hline
      have hboth : lineContent (inside ++ remaining') = lineContent (inside ++ remaining) := by
        rw [lineContent_append_of_not_isBreak hinside, lineContent_append_of_not_isBreak hinside,
          hline, hline']
      rw [← closingQuote?_lineContent, hboth, closingQuote?_lineContent, hquote]

/-- A piece that is no comment is the same before texts that agree up to a slash.  A
string may hold slashes of its own, so it is compared up to its own end. -/
theorem first_of_sameToSlash
    {c : Char} {inside remaining remaining' : List Char}
    (hsame : SameToSlash remaining remaining')
    (htext : (first c (inside ++ remaining)).text = c :: inside)
    (hcomment : (first c (inside ++ remaining)).isComment = false) :
    first c (inside ++ remaining') = first c (inside ++ remaining) := by
  have hopens : ¬ OpensComment c (inside ++ remaining) := by
    rw [← isComment_first_iff, hcomment]
    exact Bool.false_ne_true
  by_cases hquote : c = '"'
  · subst hquote
    have hstring : ∀ rest, first '"' rest = ofString rest := fun rest => rfl
    rw [hstring] at htext ⊢
    rw [hstring, ofString_of_sameToSlash hsame htext]
  · exact (hsame.append inside).first_eq hquote hopens

/-! ## The scan -/

/-- Whatever is read off pieces and their positions, but not off blank pieces, is
read off a text with its comments overwritten as off the text without them.  The
position after a piece depends on the next character only if that is an LF, which is
the same in both texts. -/
theorem flatMap_placed_blankedFrom
    {β : Type} {f : Position × Piece → List β} (hspace : ∀ p c, f (p, .space c) = [])
    (p : Position) (source : List Char) :
    (placed p (blankedFrom p source)).flatMap f =
      (placed p source).flatMap fun x => if x.2.isComment then [] else f x := by
  fun_induction placed p source with
  | case1 p => simp [blankedFrom, placed]
  | case2 p c rest piece remaining ih =>
      have hsource : c :: rest = piece.text ++ remaining := (text_first_append_drop c rest).symm
      have hblanked : blankedFrom p (c :: rest) =
          piece.blanked ++ blankedFrom (p.after piece.text remaining.head?) remaining := by
        rw [blankedFrom, placed_cons p rfl hsource, List.flatMap_cons, blankedFrom]
      have hsame := sameToSlash_blankedFrom (p.after piece.text remaining.head?) remaining
      have hnext := hsame.head?_eq_iff (show '\n' ≠ '/' by decide) (by decide)
      rw [hblanked, List.flatMap_cons, blanked, ← ih]
      by_cases hcomment : piece.isComment = true
      · rw [if_pos hcomment, if_pos hcomment, List.nil_append,
          flatMap_placed_append_of_isBlank hspace p fun _ => isBlank_of_mem_blankOut,
          p.after_blankOut piece.text hnext]
      · obtain ⟨inside, hinside⟩ : ∃ inside, piece.text = c :: inside :=
          exists_text_first_eq_cons c rest
        have hwhole : ∀ text, piece.text ++ text = c :: (inside ++ text) := by
          intro text
          rw [hinside, List.cons_append]
        have hrest : rest = inside ++ remaining := by
          rw [hwhole] at hsource
          exact (List.cons.inj hsource).2
        have hpiece : first c (inside ++ remaining) = piece := by rw [← hrest]
        have hfirst := first_of_sameToSlash hsame (hpiece ▸ hinside)
          (hpiece ▸ eq_false_of_ne_true hcomment)
        rw [if_neg hcomment, if_neg hcomment, hwhole,
          placed_cons p (hfirst.trans hpiece) (hwhole _).symm, List.flatMap_cons,
          ← p.after_congr piece.text hnext]

theorem filter_lexemes (p : Position) (piece : Piece) :
    (piece.lexemes p).filter (!·.isComment) =
      if piece.isComment then [] else piece.lexemes p := by
  cases piece with
  | space c => rfl
  | stray c => rfl
  | lexeme kind chars => cases kind <;> rfl
  | blockComment chars closed =>
      simp only [lexemes, fragments, isComment, if_true, List.filter_map]
      simp [Lexeme.isComment, Lexeme.ofChars]

theorem filter_diagnostics (p : Position) (piece : Piece) :
    (piece.diagnostics p).filter (·.problem ≠ .unterminatedBlockComment) =
      if piece.isComment then [] else piece.diagnostics p := by
  cases piece with
  | space c => rfl
  | stray c => rfl
  | lexeme kind chars => cases kind <;> rfl
  | blockComment chars closed => cases closed <;> rfl

end Piece

/-- The scan of a text with its comments overwritten. -/
theorem scan_blankedFrom (source : List Char) :
    scan (Piece.blankedFrom .start source) =
      ⟨(scan source).lexemes.filter (!·.isComment),
        (scan source).diagnostics.filter (·.problem ≠ .unterminatedBlockComment)⟩ := by
  have hlexemes := Piece.flatMap_placed_blankedFrom (f := fun x => x.2.lexemes x.1)
    (fun _ _ => rfl) .start source
  have hdiagnostics := Piece.flatMap_placed_blankedFrom (f := fun x => x.2.diagnostics x.1)
    (fun _ _ => rfl) .start source
  simp only [scan, Scan.ofPlaced, List.filter_flatMap, hlexemes, hdiagnostics,
    Piece.filter_lexemes, Piece.filter_diagnostics]

end QasmHighlight
