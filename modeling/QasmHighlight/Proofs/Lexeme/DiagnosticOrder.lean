import Mathlib.Data.List.Pairwise
import QasmHighlight.Proofs.Lexeme.Layout
import QasmHighlight.Proofs.Lexeme.Overwriting
import QasmHighlight.Proofs.Lexeme.Stop

/-!
# Diagnostics and the lexemes they belong to

A piece is reported where it begins, and every piece begins after the one before
it, so the reports come in the order of their positions.  A string that is cut
short is reported once, with its lexeme.  A block comment without an end is all
that remains of the source, so nothing but its own lines comes after it.  A stray
character is a piece of its own, and the spans of the lexemes end before it or
begin after it.
-/

namespace QasmHighlight

open Text

namespace Text

def Position.Before (p q : Position) : Prop :=
  p.line < q.line ∨ p.line = q.line ∧ p.column < q.column

private theorem Position.not_before_self (p : Position) : ¬ p.Before p := by
  unfold Position.Before
  omega

theorem Position.endsBefore_after (p : Position) {text : List Char} (htext : text ≠ [])
    (next : Option Char) : p.EndsBefore 1 (p.after text next) := by
  obtain ⟨c, rest, rfl⟩ := List.exists_cons_of_ne_nil htext
  have hstep := p.endsBefore_step c (rest.head?.or next)
  exact hstep.trans_le (Position.le_after _ rest next)

end Text

/-! ## Pieces begin one after another -/

namespace Piece

theorem endsBefore_of_mem_place {p : Position} {next : Option Char} {pieces : List Piece}
    {x : Position × Piece} (hx : x ∈ place p next pieces) : p.EndsBefore 0 x.1 := by
  induction pieces generalizing p with
  | nil => cases hx
  | cons piece rest ih =>
      rcases List.mem_cons.1 hx with rfl | hlater
      · exact .inr ⟨rfl, Nat.le_refl _⟩
      · have hmoved : p.EndsBefore 0 _ :=
          Position.le_after p piece.text ((texts rest).head?.or next)
        exact hmoved.trans_le (ih hlater)

private theorem snd_mem_of_mem_place {p : Position} {next : Option Char} {pieces : List Piece}
    {x : Position × Piece} (hx : x ∈ place p next pieces) : x.2 ∈ pieces := by
  induction pieces generalizing p with
  | nil => cases hx
  | cons piece rest ih =>
      rcases List.mem_cons.1 hx with rfl | hlater
      · exact List.mem_cons_self
      · exact List.mem_cons_of_mem piece (ih hlater)

/-- Where each piece takes up at least `reach` columns or ends its line, later
pieces begin beyond that. -/
theorem pairwise_place (reach : Piece → Nat) {pieces : List Piece}
    (hreach : ∀ piece ∈ pieces, ∀ (p : Position) (next : Option Char),
      p.EndsBefore (reach piece) (p.after piece.text next))
    (p : Position) (next : Option Char) :
    (place p next pieces).Pairwise fun a b => a.1.EndsBefore (reach a.2) b.1 := by
  induction pieces generalizing p with
  | nil => exact .nil
  | cons piece rest ih =>
      have hrest := ih fun later hlater => hreach later (List.mem_cons_of_mem piece hlater)
      refine .cons ?_ (hrest _)
      intro x hx
      exact (hreach piece List.mem_cons_self p _).trans_le (endsBefore_of_mem_place hx)

private theorem texts_map_placed (p : Position) (source : List Char) :
    texts ((placed p source).map Prod.snd) = source := by
  fun_induction placed p source with
  | case1 p => rfl
  | case2 p c rest piece remaining ih =>
      rw [List.map_cons, texts_cons, ih]
      exact text_first_append_drop c rest

theorem placed_eq_place (p : Position) (source : List Char) :
    placed p source = place p none ((placed p source).map Prod.snd) := by
  fun_induction placed p source with
  | case1 p => rfl
  | case2 p c rest piece remaining ih =>
      rw [List.map_cons, place, texts_map_placed, Option.or_none, ← ih]

private theorem text_ne_nil_of_mem_placed {p : Position} {source : List Char} {piece : Piece}
    (hpiece : piece ∈ (placed p source).map Prod.snd) : piece.text ≠ [] := by
  fun_induction placed p source with
  | case1 p => cases hpiece
  | case2 p c rest first remaining ih =>
      rcases List.mem_cons.1 hpiece with rfl | hlater
      · exact text_first_ne_nil c rest
      · exact ih hlater

theorem pairwise_placed (source : List Char) :
    (placed .start source).Pairwise fun a b => a.1.Before b.1 := by
  rw [placed_eq_place]
  exact pairwise_place (fun _ => 1)
    (fun piece hpiece p next => p.endsBefore_after (text_ne_nil_of_mem_placed hpiece) next)
    .start none

theorem IsPlain.endsBefore_after {piece : Piece} (hplain : piece.IsPlain) (p : Position)
    (next : Option Char) : p.EndsBefore (units piece.text) (p.after piece.text next) := by
  have hone : ∀ c : Char, p.EndsBefore (units [c]) (p.after [c] next) := by
    intro c
    rw [Position.after_cons, Position.after_nil]
    unfold Position.step
    split
    · exact .inl (Nat.lt_succ_self _)
    · exact .inr ⟨rfl, by simp⟩
  cases piece with
  | space c => exact hone c
  | stray c => exact hone c
  | lexeme kind chars =>
      rw [text, Position.after_of_forall_not_isBreak p hplain.2]
      exact .inr ⟨rfl, Nat.le_refl _⟩
  | blockComment chars closed => exact hplain.elim

/-! ## The reports of one piece -/

private theorem diagnostics_cases (p : Position) (piece : Piece) :
    piece.diagnostics p = [] ∨ ∃ problem, piece.diagnostics p = [⟨problem, p⟩] := by
  unfold diagnostics
  split
  · exact .inr ⟨_, rfl⟩
  · exact .inr ⟨_, rfl⟩
  · exact .inr ⟨_, rfl⟩
  · exact .inl rfl

theorem position_of_mem_diagnostics {p : Position} {piece : Piece} {diagnostic : Diagnostic}
    (hdiagnostic : diagnostic ∈ piece.diagnostics p) : diagnostic.position = p := by
  rcases diagnostics_cases p piece with hnone | ⟨problem, hone⟩
  · rw [hnone] at hdiagnostic
    cases hdiagnostic
  · rw [hone] at hdiagnostic
    rw [List.mem_singleton.1 hdiagnostic]

private theorem kind_of_mem_fragments {p : Position} {chars : List Char} {lexeme : Lexeme}
    (hlexeme : lexeme ∈ fragments p chars) : lexeme.kind = .comment := by
  obtain ⟨line, _, rfl⟩ := List.mem_map.1 hlexeme
  rfl

theorem positions_unterminatedString (p : Position) (piece : Piece) :
    ((piece.diagnostics p).filter (·.problem = .unterminatedString)).map (·.position) =
      ((piece.lexemes p).filter (·.kind = .unterminatedString)).map (·.position) := by
  cases piece with
  | space c => rfl
  | stray c => rfl
  | lexeme kind chars => cases kind <;> rfl
  | blockComment chars closed =>
      have hnone : (fragments p chars).filter (·.kind = .unterminatedString) = [] := by
        rw [List.filter_eq_nil_iff]
        intro lexeme hlexeme
        simp [kind_of_mem_fragments hlexeme]
      rw [lexemes, hnone]
      cases closed <;> rfl

end Piece

theorem pairwise_diagnostics (source : List Char) :
    (scan source).diagnostics.Pairwise fun a b => a.position.Before b.position := by
  rw [scan, Scan.ofPlaced, List.pairwise_flatMap]
  constructor
  · rintro ⟨p, piece⟩ _
    dsimp only
    rcases Piece.diagnostics_cases p piece with hnone | ⟨problem, hone⟩
    · rw [hnone]
      exact .nil
    · rw [hone]
      exact List.pairwise_singleton _ _
  · refine (Piece.pairwise_placed source).imp ?_
    intro a b hbefore x hx y hy
    rw [Piece.position_of_mem_diagnostics hx, Piece.position_of_mem_diagnostics hy]
    exact hbefore

theorem positions_unterminatedString_scan (source : List Char) :
    ((scan source).diagnostics.filter (·.problem = .unterminatedString)).map (·.position) =
      ((scan source).lexemes.filter (·.kind = .unterminatedString)).map (·.position) := by
  simp only [scan, Scan.ofPlaced, List.filter_flatMap, List.map_flatMap,
    Piece.positions_unterminatedString]

/-! ## A comment without an end -/

namespace Piece

private theorem exists_fragments_eq_cons (p : Position) (more : List Char) :
    ∃ comment later, fragments p ('/' :: '*' :: more) = comment :: later ∧
      comment.position = p := by
  have hline : lineContent ('/' :: '*' :: more) ≠ [] := by
    simp [lineContent, isBreak]
  have hlexeme : lineLexemes p (lineContent ('/' :: '*' :: more)) =
      [.ofChars .comment (lineContent ('/' :: '*' :: more)) p] := if_neg hline
  cases hread : LineBreak.read? (afterContent ('/' :: '*' :: more)) with
  | none =>
      rw [fragments_of_read?_eq_none hread, hlexeme]
      exact ⟨_, _, rfl, rfl⟩
  | some found =>
      rw [fragments_of_read?_eq_some hread, hlexeme]
      exact ⟨_, _, rfl, rfl⟩

theorem eq_of_unterminatedBlockComment_mem {p q : Position} {piece : Piece}
    (hreported : ⟨.unterminatedBlockComment, q⟩ ∈ piece.diagnostics p) :
    ∃ chars, piece = .blockComment chars false := by
  unfold diagnostics at hreported
  split at hreported
  · cases List.mem_singleton.1 hreported
  · cases List.mem_singleton.1 hreported
  · exact ⟨_, rfl⟩
  · cases hreported

end Piece

theorem Stop.exists_of_mem_diagnostics {source : List Char} {diagnostic : Diagnostic}
    (hdiagnostic : diagnostic ∈ (scan source).diagnostics) :
    ∃ (stop : Stop source) (c : Char) (rest : List Char), stop.rest = c :: rest ∧
      diagnostic ∈ (Piece.first c rest).diagnostics stop.position := by
  obtain ⟨x, hx, hreported⟩ := List.mem_flatMap.1 hdiagnostic
  rw [(first source).placed_eq] at hx
  obtain ⟨stop, c, rest, hrest, rfl⟩ := (first source).exists_of_mem_ahead hx
  exact ⟨stop, c, rest, hrest, hreported⟩

/-- A comment without an end is reported last, and its lines are the last
lexemes. -/
theorem scan_of_unterminatedBlockComment {source : List Char} {diagnostic : Diagnostic}
    (hdiagnostic : diagnostic ∈ (scan source).diagnostics)
    (hproblem : diagnostic.problem = .unterminatedBlockComment) :
    ∃ before earlier comment later,
      (scan source).diagnostics = before ++ [diagnostic] ∧
      (scan source).lexemes = earlier ++ comment :: later ∧
      comment.position = diagnostic.position ∧
      ∀ lexeme ∈ comment :: later, lexeme.kind = .comment := by
  obtain ⟨problem, q⟩ := diagnostic
  obtain rfl : problem = .unterminatedBlockComment := hproblem
  obtain ⟨stop, c, rest, hrest, hreported⟩ := Stop.exists_of_mem_diagnostics hdiagnostic
  obtain rfl := Piece.position_of_mem_diagnostics hreported
  obtain ⟨chars, hfirst⟩ := Piece.eq_of_unterminatedBlockComment_mem hreported
  have hscan := stop.scan_eq_next hrest
  have hend := stop.rest_next hrest
  rw [hfirst] at hscan hend
  cases Piece.reads_of_first_eq hfirst with
  | unclosedComment hslash hstar _ =>
      obtain ⟨more, rfl⟩ := List.head?_eq_some_iff.1 hstar
      subst hslash
      have hahead : (stop.next hrest).ahead = ⟨[], []⟩ := by
        have hnil : (stop.next hrest).rest = [] := hend.trans List.drop_length
        rw [Stop.ahead, hnil, Piece.placed]
        rfl
      obtain ⟨comment, later, hfragments, hposition⟩ :=
        Piece.exists_fragments_eq_cons stop.position more
      refine ⟨stop.found.diagnostics, stop.found.lexemes, comment, later, ?_, ?_, hposition, ?_⟩
      · rw [hscan, hahead]
        simp [Piece.diagnostics]
      · rw [hscan, hahead]
        simp [Piece.lexemes, ← hfragments]
      · rw [← hfragments]
        intro lexeme
        exact Piece.kind_of_mem_fragments

/-- Another report of a comment without an end would be the last as well. -/
theorem countP_unterminatedBlockComment_le_one (source : List Char) :
    (scan source).diagnostics.countP (·.problem = .unterminatedBlockComment) ≤ 1 := by
  by_cases hnone : ∀ diagnostic ∈ (scan source).diagnostics,
      diagnostic.problem ≠ .unterminatedBlockComment
  · have hzero : (scan source).diagnostics.countP (·.problem = .unterminatedBlockComment) = 0 := by
      rw [List.countP_eq_zero]
      simpa using hnone
    omega
  · push Not at hnone
    obtain ⟨last, hlast, hproblem⟩ := hnone
    obtain ⟨before, _, _, _, hbefore, _⟩ := scan_of_unterminatedBlockComment hlast hproblem
    have hothers : before.countP (·.problem = .unterminatedBlockComment) = 0 := by
      rw [List.countP_eq_zero]
      intro other hother hcomment
      have hmem : other ∈ (scan source).diagnostics := by
        rw [hbefore]
        exact List.mem_append_left _ hother
      obtain ⟨before', _, _, _, hbefore', _⟩ :=
        scan_of_unterminatedBlockComment hmem (by simpa using hcomment)
      have hsame : other = last := by
        have hlists := congrArg List.getLast? (hbefore'.symm.trans hbefore)
        simpa using hlists
      have horder := pairwise_diagnostics source
      rw [hbefore, List.pairwise_append] at horder
      have hearlier := horder.2.2 other hother last List.mem_cons_self
      rw [hsame] at hearlier
      exact last.position.not_before_self hearlier
    rw [hbefore, List.countP_append, hothers, List.countP_singleton]
    split <;> omega

/-! ## Stray characters -/

/-- Of two pieces that keep to their lines, one ends before the other begins. -/
theorem Piece.apart_of_mem_place {source : List Char} {x y : Position × Piece}
    (hx : x ∈ place .start none (ofSource source)) (hy : y ∈ place .start none (ofSource source))
    (hne : x ≠ y) : x.1.EndsBefore (units x.2.text) y.1 ∨ y.1.EndsBefore (units y.2.text) x.1 := by
  let apart (a b : Position × Piece) : Prop :=
    a.1.EndsBefore (units a.2.text) b.1 ∨ b.1.EndsBefore (units b.2.text) a.1
  have hplain : ∀ piece ∈ ofSource source, piece.IsPlain := fun _ => isPlain_of_mem_ofSource
  have horder := pairwise_place (fun piece => units piece.text)
    (fun piece hpiece => (hplain piece hpiece).endsBefore_after) .start none
  have hsymm : Std.Symm apart := ⟨fun _ _ => Or.symm⟩
  have hapart : (place .start none (ofSource source)).Pairwise apart := horder.imp Or.inl
  exact hapart.forall hx hy hne

theorem Piece.eq_of_mem_strayReports {x : Position × Piece} {diagnostic : Diagnostic}
    (hreported : diagnostic ∈ strayReports x) : ∃ c, x = (diagnostic.position, .stray c) := by
  obtain ⟨p, piece⟩ := x
  rw [strayReports_eq] at hreported
  cases piece with
  | stray c =>
      rw [List.mem_singleton.1 hreported]
      exact ⟨c, rfl⟩
  | space c => cases hreported
  | lexeme kind chars => cases hreported
  | blockComment chars closed => cases hreported

theorem Piece.eq_of_mem_lexemes_of_isPlain {p : Position} {piece : Piece} {lexeme : Lexeme}
    (hlexeme : lexeme ∈ piece.lexemes p) (hplain : piece.IsPlain) :
    ∃ kind chars, piece = .lexeme kind chars ∧ lexeme = .ofChars kind chars p := by
  cases piece with
  | lexeme kind chars => exact ⟨kind, chars, rfl, List.mem_singleton.1 hlexeme⟩
  | space c => cases hlexeme
  | stray c => cases hlexeme
  | blockComment chars closed => exact hplain.elim

theorem not_covers_of_unexpectedCharacter {source : List Char} {diagnostic : Diagnostic}
    (hdiagnostic : diagnostic ∈ (scan source).diagnostics)
    (hproblem : diagnostic.isUnexpectedCharacter = true) {lexeme : Lexeme}
    (hlexeme : lexeme ∈ (scan source).lexemes) :
    lexeme.position.covers lexeme.length diagnostic.position = false := by
  have hreported := List.mem_filter.2 ⟨hdiagnostic, hproblem⟩
  rw [Piece.filter_diagnostics_scan] at hreported
  rw [Piece.lexemes_scan] at hlexeme
  obtain ⟨x, hx, hstray⟩ := List.mem_flatMap.1 hreported
  obtain ⟨⟨p, piece⟩, hy, hown⟩ := List.mem_flatMap.1 hlexeme
  have hplain : piece.IsPlain := Piece.isPlain_of_mem_ofSource (Piece.snd_mem_of_mem_place hy)
  obtain ⟨c, rfl⟩ := Piece.eq_of_mem_strayReports hstray
  obtain ⟨kind, chars, rfl, rfl⟩ := Piece.eq_of_mem_lexemes_of_isPlain hown hplain
  have hself : ∀ q : Position, q.EndsBefore 0 q := fun q => .inr ⟨rfl, Nat.le_refl _⟩
  rcases Piece.apart_of_mem_place hx hy (by simp) with hbefore | hafter
  · have hwidth := units_pos (List.cons_ne_nil c [])
    have hone : diagnostic.position.EndsBefore 1 p := by
      unfold Position.EndsBefore at hbefore ⊢
      simp only [Piece.text] at hbefore
      omega
    exact Position.not_covers_of_before hone (hself p)
  · exact Position.not_covers_of_endsBefore hafter (hself diagnostic.position)

/-- The reports of a source come in the order of their positions.  Those of strings
that are cut short stand where these begin, one for each.  That of a comment
without an end is the last and there is no other such; it stands where a comment
begins, and from this one on all lexemes are comments.  No lexeme extends over a
character that is reported as unexpected. -/
theorem diagnostics_ordered_and_tied (source : List Char) :
    (scan source).diagnostics.Pairwise (fun a b => a.position.Before b.position) ∧
    ((scan source).diagnostics.filter (·.problem = .unterminatedString)).map (·.position) =
      ((scan source).lexemes.filter (·.kind = .unterminatedString)).map (·.position) ∧
    (scan source).diagnostics.countP (·.problem = .unterminatedBlockComment) ≤ 1 ∧
    (∀ diagnostic ∈ (scan source).diagnostics,
      diagnostic.problem = .unterminatedBlockComment →
        (scan source).diagnostics.getLast? = some diagnostic ∧
        ∃ earlier comment later, (scan source).lexemes = earlier ++ comment :: later ∧
          comment.position = diagnostic.position ∧
          ∀ lexeme ∈ comment :: later, lexeme.kind = .comment) ∧
    ∀ diagnostic ∈ (scan source).diagnostics, diagnostic.isUnexpectedCharacter = true →
      ∀ lexeme ∈ (scan source).lexemes,
        lexeme.position.covers lexeme.length diagnostic.position = false := by
  refine ⟨pairwise_diagnostics source, positions_unterminatedString_scan source,
    countP_unterminatedBlockComment_le_one source, ?_, ?_⟩
  · intro diagnostic hdiagnostic hproblem
    obtain ⟨before, earlier, comment, later, hbefore, hlexemes, hposition, hkinds⟩ :=
      scan_of_unterminatedBlockComment hdiagnostic hproblem
    refine ⟨?_, earlier, comment, later, hlexemes, hposition, hkinds⟩
    rw [hbefore, List.getLast?_concat]
  · intro diagnostic hdiagnostic hproblem lexeme hlexeme
    exact not_covers_of_unexpectedCharacter hdiagnostic hproblem hlexeme

/-- A string that is cut short, a stray character, and a comment over two lines. -/
example : scan "\"a\n?/*\n*".toList =
    ⟨[⟨.unterminatedString, "\"a", ⟨1, 0⟩, 2⟩, ⟨.comment, "/*", ⟨2, 1⟩, 2⟩,
        ⟨.comment, "*", ⟨3, 0⟩, 1⟩],
      [⟨.unterminatedString, ⟨1, 0⟩⟩, ⟨.unexpectedCharacter '?', ⟨2, 0⟩⟩,
        ⟨.unterminatedBlockComment, ⟨2, 1⟩⟩]⟩ := by
  decide +kernel

end QasmHighlight
