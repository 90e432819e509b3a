import QasmHighlight.Proofs.Lexeme.PlainPiece
import QasmHighlight.Proofs.Text.CheckedPosition

/-!
# Scanning with words

Here the scan is written so that it keeps lines, columns and lengths in words, with
every sum and every difference checked: a lexeme's length is the column at which it
ends less the column at which it begins.  The checked scan of a text whose bytes leave
room in a word never meets a fault and finds what the plain scan finds.  A difference
of columns never falls below zero because a lexeme ends on the line on which it
begins.
-/

namespace QasmHighlight

open Text

namespace Checked

/-- The lexeme of the characters between two positions; none if the columns do not
differ. -/
def emit (kind : LexemeKind) (chars : List Char) (start stop : Position) :
    Except WordFault (List Lexeme) := do
  let length ← sub stop.column start.column
  return if length = 0 then [] else [⟨kind, String.ofList chars, start, length⟩]

/-- The lexemes of a block comment at a position and the position after it.  Each
line ends a lexeme, whose length is taken before the line break is read, and the next
one begins after it. -/
def fragments (p : Position) (chars : List Char) (next : Option Char) :
    Except WordFault (List Lexeme × Position) :=
  match _h : LineBreak.read? (afterContent chars) with
  | none => do
    let stop ← after p (lineContent chars) next
    let found ← emit .comment (lineContent chars) p stop
    return (found, stop)
  | some (b, rest) => do
    let stop ← after p (lineContent chars) (b.chars.head?.or next)
    let found ← emit .comment (lineContent chars) p stop
    let below ← after stop b.chars (rest.head?.or next)
    let more ← fragments below rest next
    return (found ++ more.1, more.2)
termination_by chars.length
decreasing_by exact length_lt_of_read?_afterContent _h

/-- The lexemes of a piece at a position and the position after it. -/
def read (p : Position) (next : Option Char) : Piece → Except WordFault (List Lexeme × Position)
  | .space c => do
    let stop ← after p [c] next
    return ([], stop)
  | .stray c => do
    let stop ← after p [c] next
    return ([], stop)
  | .lexeme kind chars => do
    let stop ← after p chars next
    let found ← emit kind chars p stop
    return (found, stop)
  | .blockComment chars _ => fragments p chars next

def scanInto (limit : Nat) (p : Position) (lexemes : Array Lexeme)
    (diagnostics : Array Diagnostic) (source : List Char) : Except WordFault (Option Scan) :=
  match source with
  | [] => return some ⟨lexemes.toList, diagnostics.toList⟩
  | c :: rest => do
    let piece := Piece.first c rest
    let remaining := (c :: rest).drop piece.text.length
    let found ← read p remaining.head? piece
    if limit < (lexemes ++ found.1).size then return none
    else
      scanInto limit found.2 (lexemes ++ found.1) (diagnostics ++ piece.diagnostics p) remaining
termination_by source.length
decreasing_by exact Piece.length_drop_first_lt c rest

def scanWithin (limit : Nat) (source : List Char) : Except WordFault (Option Scan) :=
  scanInto limit .start #[] #[] source

/-! ## The checked scan against the plain one -/

variable {p : Position} {text : List Char}

theorem emit_eq_ok (kind : LexemeKind) (chars : List Char) (p : Position) :
    emit kind chars p ⟨p.line, p.column + units chars⟩ =
      .ok (if chars = [] then [] else [.ofChars kind chars p]) := by
  have hempty : units chars = 0 ↔ chars = [] := by
    constructor
    · intro hzero
      by_contra hne
      exact Nat.ne_of_gt (units_pos hne) hzero
    · rintro rfl
      rfl
  unfold emit
  rw [sub_eq_ok (Nat.le_add_right _ _), Nat.add_sub_cancel_left]
  simp only [bind, Except.bind, pure, Except.pure, hempty]
  rfl

/-- Reading the characters of a line moves only the column, so that they make a
lexeme of their own length. -/
theorem after_emit_eq_ok (kind : LexemeKind) {chars : List Char}
    (hchars : ∀ c ∈ chars, isBreak c = false) (hroom : p.HasRoom chars) (next : Option Char) :
    after p chars next = .ok ⟨p.line, p.column + units chars⟩ ∧
      emit kind chars p ⟨p.line, p.column + units chars⟩ =
        .ok (if chars = [] then [] else [.ofChars kind chars p]) := by
  rw [after_eq_ok hroom, Position.after_of_forall_not_isBreak p hchars]
  exact ⟨rfl, emit_eq_ok kind chars p⟩

private theorem fragments_of_read?_eq_none
    {chars : List Char} {found : List Lexeme} {stop : Position}
    {next : Option Char} (hread : LineBreak.read? (afterContent chars) = none)
    (hafter : after p (lineContent chars) next = .ok stop)
    (hemit : emit .comment (lineContent chars) p stop = .ok found) :
    fragments p chars next = .ok (found, stop) := by
  rw [fragments]
  split
  · rw [hafter]
    simp only [bind, Except.bind, hemit]
    rfl
  · next hsome =>
    rw [hread] at hsome
    cases hsome

private theorem fragments_of_read?_eq_some {chars rest : List Char} {b : LineBreak}
    {found : List Lexeme} {stop below : Position} {next : Option Char}
    (hread : LineBreak.read? (afterContent chars) = some (b, rest))
    (hafter : after p (lineContent chars) (b.chars.head?.or next) = .ok stop)
    (hemit : emit .comment (lineContent chars) p stop = .ok found)
    (hbelow : after stop b.chars (rest.head?.or next) = .ok below) :
    fragments p chars next =
      (fragments below rest next).map fun more => (found ++ more.1, more.2) := by
  rw [fragments]
  split
  · next hnone =>
    rw [hread] at hnone
    cases hnone
  · next hsome =>
    rw [hread] at hsome
    cases hsome
    rw [hafter]
    simp only [bind, Except.bind, hemit, hbelow]
    cases fragments below rest next <;> rfl

/-- The lines of a comment are gone through as its plain pieces are. -/
theorem fragments_eq_ok {chars : List Char} {next : Option Char} (hroom : p.HasRoom chars)
    (hwhole : ¬ SplitsCrlf chars next) :
    fragments p chars next = .ok (Piece.fragments p chars, p.after chars next) := by
  fun_induction Piece.ofCommentLines chars generalizing p with
  | case1 chars hread =>
      have hplain := lineContent_not_isBreak chars
      have hcontent := lineContent_eq_self_of_read?_eq_none hread
      obtain ⟨hafter, hemit⟩ :=
        after_emit_eq_ok .comment hplain (hcontent.symm ▸ hroom) next
      rw [fragments_of_read?_eq_none hread hafter hemit, Piece.fragments_of_read?_eq_none hread,
        ← Position.after_of_forall_not_isBreak p hplain next, hcontent]
      rfl
  | case2 chars b rest hread ih =>
      have hplain := lineContent_not_isBreak chars
      have hparts := eq_append_of_read?_afterContent hread
      obtain ⟨hbreak, hrest⟩ := not_splitsCrlf_of_read?_afterContent hread hwhole
      have hfirst := p.after_firstLine hread hwhole
      rw [← hparts] at hroom
      have hbelowRoom := hroom.after (rest.head?.or next)
      rw [hfirst] at hbelowRoom
      obtain ⟨hafter, hemit⟩ :=
        after_emit_eq_ok .comment hplain hroom.of_append.of_append (b.chars.head?.or next)
      have hbreakRoom := hroom.of_append.after (b.chars.head?.or next)
      rw [Position.after_of_forall_not_isBreak p hplain] at hbreakRoom
      have hbelow := after_eq_ok hbreakRoom (rest.head?.or next)
      rw [Position.after_lineBreak _ hread hbreak] at hbelow
      have hend : p.after chars next = (⟨p.line + 1, 0⟩ : Position).after rest next := by
        rw [← hfirst, ← Position.after_append, hparts]
      rw [fragments_of_read?_eq_some hread hafter hemit hbelow, ih hbelowRoom hrest,
        Piece.fragments_of_read?_eq_some hread, hend]
      rfl

theorem read_eq_ok_of_isPlain {piece : Piece} (hplain : piece.IsPlain)
    (hroom : p.HasRoom piece.text) (next : Option Char) :
    read p next piece = .ok (piece.lexemes p, p.after piece.text next) := by
  cases piece with
  | space c =>
      have hafter : after p [c] next = .ok (p.after [c] next) := after_eq_ok hroom next
      rw [read, hafter]
      rfl
  | stray c =>
      have hafter : after p [c] next = .ok (p.after [c] next) := after_eq_ok hroom next
      rw [read, hafter]
      rfl
  | lexeme kind chars =>
      obtain ⟨hne, hchars⟩ := hplain
      obtain ⟨hafter, hemit⟩ := after_emit_eq_ok kind hchars hroom next
      rw [if_neg hne] at hemit
      have hend : p.after chars next = ⟨p.line, p.column + units chars⟩ :=
        Position.after_of_forall_not_isBreak p hchars next
      simp only [read, hafter, bind, Except.bind, hemit, pure, Except.pure, Piece.lexemes,
        Piece.text, hend]
  | blockComment chars closed => exact hplain.elim

/-- The first piece of a text is read as the plain scan reads it. -/
theorem read_first_eq_ok {c : Char} {rest : List Char} (hroom : p.HasRoom (c :: rest)) :
    let piece := Piece.first c rest
    let next := ((c :: rest).drop piece.text.length).head?
    read p next piece = .ok (piece.lexemes p, p.after piece.text next) := by
  intro piece next
  have hpiece : p.HasRoom piece.text := by
    rw [← Piece.text_first_append_drop c rest] at hroom
    exact hroom.of_append
  rcases Piece.isPlain_first_or_blockComment c rest with hplain | ⟨more, hsource, hcomment⟩
  · exact read_eq_ok_of_isPlain hplain hpiece next
  · obtain ⟨chars, closed, hchars, hwhole⟩ := Piece.ofComment_not_splitsCrlf more
    have hfirst : piece = .blockComment chars closed := hcomment.trans hchars
    have hnext : ¬ SplitsCrlf chars next := by
      rw [← hsource] at hwhole
      simpa [next, hfirst, Piece.text] using hwhole
    rw [hfirst] at hpiece ⊢
    exact fragments_eq_ok hpiece hnext

/-- From a position with room for all that remains, the checked scan meets no fault
and goes as the plain one does. -/
theorem scanInto_eq_ok (limit : Nat) {source : List Char} (hroom : p.HasRoom source)
    (lexemes : Array Lexeme) (diagnostics : Array Diagnostic) :
    scanInto limit p lexemes diagnostics source =
      .ok (QasmHighlight.scanInto limit p lexemes diagnostics source) := by
  fun_induction QasmHighlight.scanInto limit p lexemes diagnostics source with
  | case1 p lexemes diagnostics =>
      rw [scanInto]
      rfl
  | case2 p lexemes diagnostics c rest piece found hover =>
      have hread := read_first_eq_ok hroom
      dsimp only at hread
      rw [scanInto, hread]
      simp only [bind, Except.bind]
      exact if_pos hover
  | case3 p lexemes diagnostics c rest piece remaining found hfits ih =>
      have hread := read_first_eq_ok hroom
      dsimp only at hread
      have hremaining : (p.after piece.text remaining.head?).HasRoom remaining := by
        rw [← Piece.text_first_append_drop c rest] at hroom
        exact hroom.after _
      rw [scanInto, hread]
      simp only [bind, Except.bind]
      rw [if_neg hfits]
      exact ih hremaining

theorem scanWithin_eq_ok (limit : Nat) {source : List Char}
    (hsmall : bytes source + 1 < wordBound) :
    scanWithin limit source = .ok (QasmHighlight.scanWithin limit source) :=
  scanInto_eq_ok limit (.start_of_bytes hsmall) #[] #[]

/-! ## The bound is sharp -/

private theorem scanInto_lf_cons (limit : Nat) (p : Position) (rest : List Char) :
    scanInto limit p #[] #[] ('\n' :: rest) =
      (add p.line 1).bind fun line => scanInto limit ⟨line, 0⟩ #[] #[] rest := by
  have hfirst : Piece.first '\n' rest = .space '\n' := if_pos (by decide)
  rw [scanInto, hfirst]
  simp only [Piece.text, List.length_singleton, List.drop_succ_cons, List.drop_zero, read, after,
    step, true_or, if_true]
  cases add p.line 1 with
  | error fault => rfl
  | ok line =>
      have hfits : ¬ limit < ((#[] : Array Lexeme) ++ ([] : List Lexeme)).size :=
        Nat.not_lt_zero limit
      simp only [bind, Except.bind, pure, Except.pure, if_neg hfits]
      rfl

theorem scanInto_replicate_lf (limit count : Nat) {p : Position} (hline : p.line < wordBound) :
    scanInto limit p #[] #[] (List.replicate count '\n') =
      if p.line + count < wordBound then .ok (some ⟨[], []⟩) else .error .sum := by
  induction count generalizing p with
  | zero =>
      rw [List.replicate_zero, scanInto, Nat.add_zero, if_pos hline]
      rfl
  | succ count ih =>
      rw [List.replicate_succ, scanInto_lf_cons]
      by_cases hnext : p.line + 1 < wordBound
      · have hrest := ih (p := ⟨p.line + 1, 0⟩) hnext
        rw [add_eq_ok hnext, Nat.add_comm count 1, ← Nat.add_assoc]
        exact hrest
      · have hover : ¬ p.line + (count + 1) < wordBound := by omega
        rw [add_eq_error (Nat.not_lt.1 hnext), if_neg hover]
        rfl

/-- One more line break than there is room for makes the count of lines leave the
words, so no larger bound on the bytes would do. -/
theorem scanWithin_replicate_lf (limit count : Nat) :
    scanWithin limit (List.replicate count '\n') =
      if count + 1 < wordBound then .ok (some ⟨[], []⟩) else .error .sum := by
  have hstart : Position.start.line < wordBound := by decide
  have hscan := scanInto_replicate_lf limit count hstart
  rw [Nat.add_comm] at hscan
  exact hscan

end Checked
end QasmHighlight
