import QasmHighlight.Proofs.Lexeme.PlainPiece

/-!
# The scan loses nothing

A source is its lexemes with gaps before, between and after them.  What stands
in a gap is blank or was reported as unexpected, and the reports are exactly the
characters in the gaps that are not blank, each once, in order and at its own
position.
-/

namespace QasmHighlight

open Text
open Piece

/-- A text made of gaps and of the texts between them, a gap at either end. -/
def interleave : List (List Char) → List (List Char) → List Char
  | gap :: gaps, text :: texts => gap ++ text ++ interleave gaps texts
  | gap :: _, [] => gap
  | [], _ => []

/-- The characters of the gaps of such a text with their places, the first of
the places being `start`. -/
def gapCharacters (start : Nat) : List (List Char) → List (List Char) → List (Char × Nat)
  | gap :: gaps, text :: texts =>
    gap.zipIdx start ++ gapCharacters (start + gap.length + text.length) gaps texts
  | gap :: _, [] => gap.zipIdx start
  | [], _ => []

def Diagnostic.isUnexpectedCharacter (diagnostic : Diagnostic) : Bool :=
  match diagnostic.problem with
  | .unexpectedCharacter _ => true
  | _ => false

private theorem gapCharacters_cons_head
    (start : Nat) (c : Char) (gap : List Char) (gaps texts : List (List Char)) :
    gapCharacters start ((c :: gap) :: gaps) texts =
      (c, start) :: gapCharacters (start + 1) (gap :: gaps) texts := by
  cases texts with
  | nil => rfl
  | cons text more =>
      have hplace : start + (c :: gap).length = start + 1 + gap.length := by
        rw [List.length_cons]
        omega
      simp only [gapCharacters, hplace, List.zipIdx_cons, List.cons_append]

theorem exists_mem_gapCharacters
    {gaps texts : List (List Char)} (hlength : gaps.length = texts.length + 1)
    {gap : List Char} (hgap : gap ∈ gaps) {c : Char} (hc : c ∈ gap) (start : Nat) :
    ∃ place, (c, place) ∈ gapCharacters start gaps texts := by
  induction texts generalizing gaps start with
  | nil =>
      obtain ⟨only, rfl⟩ := List.length_eq_one_iff.1 hlength
      obtain rfl := List.mem_singleton.1 hgap
      obtain ⟨i, hi, hget⟩ := List.getElem_of_mem hc
      refine ⟨start + i, ?_⟩
      rw [gapCharacters, List.mk_mem_zipIdx_iff_le_and_getElem?_sub]
      simp [hget, hi]
  | cons text more ih =>
      cases gaps with
      | nil => cases hgap
      | cons head gaps =>
          rcases List.mem_cons.1 hgap with rfl | hlater
          · obtain ⟨i, hi, hget⟩ := List.getElem_of_mem hc
            refine ⟨start + i, ?_⟩
            rw [gapCharacters, List.mem_append, List.mk_mem_zipIdx_iff_le_and_getElem?_sub]
            exact .inl (by simp [hget, hi])
          · have hshorter : gaps.length = more.length + 1 := by simpa using hlength
            obtain ⟨place, hplace⟩ := ih hshorter hlater (start + head.length + text.length)
            exact ⟨place, List.mem_append_right _ hplace⟩

/-! ## Gaps between plain pieces -/

namespace Piece

/-- The gaps that the lexemes among pieces leave. -/
def gapsOf : List Piece → List (List Char)
  | [] => [[]]
  | .lexeme _ _ :: rest => [] :: gapsOf rest
  | piece :: rest => (gapsOf rest).modifyHead (piece.text ++ ·)

def lexemeTexts : List Piece → List (List Char)
  | [] => []
  | .lexeme _ chars :: rest => chars :: lexemeTexts rest
  | _ :: rest => lexemeTexts rest

private theorem exists_gapsOf_eq_cons (pieces : List Piece) :
    ∃ gap gaps, gapsOf pieces = gap :: gaps := by
  induction pieces with
  | nil => exact ⟨[], [], rfl⟩
  | cons piece rest ih =>
      obtain ⟨gap, gaps, hgaps⟩ := ih
      cases piece with
      | lexeme kind chars => exact ⟨[], gapsOf rest, rfl⟩
      | space c => exact ⟨c :: gap, gaps, by simp [gapsOf, hgaps, text]⟩
      | stray c => exact ⟨c :: gap, gaps, by simp [gapsOf, hgaps, text]⟩
      | blockComment chars closed => exact ⟨chars ++ gap, gaps, by simp [gapsOf, hgaps, text]⟩

theorem length_gapsOf (pieces : List Piece) :
    (gapsOf pieces).length = (lexemeTexts pieces).length + 1 := by
  induction pieces with
  | nil => rfl
  | cons piece rest ih => cases piece <;> simp [gapsOf, lexemeTexts, ih]

theorem interleave_gapsOf (pieces : List Piece) :
    interleave (gapsOf pieces) (lexemeTexts pieces) = texts pieces := by
  induction pieces with
  | nil => rfl
  | cons piece rest ih =>
      obtain ⟨gap, gaps, hgaps⟩ := exists_gapsOf_eq_cons rest
      rw [hgaps] at ih
      have hhead : ∀ chars : List Char,
          interleave ((chars ++ gap) :: gaps) (lexemeTexts rest) = chars ++ texts rest := by
        intro chars
        rw [← ih]
        cases lexemeTexts rest with
        | nil => rfl
        | cons text more => simp [interleave]
      cases piece with
      | lexeme kind chars => simp [gapsOf, lexemeTexts, interleave, hgaps, ih, text]
      | space c => simpa [gapsOf, lexemeTexts, hgaps, text] using hhead [c]
      | stray c => simpa [gapsOf, lexemeTexts, hgaps, text] using hhead [c]
      | blockComment chars closed =>
          simpa [gapsOf, lexemeTexts, hgaps, text] using hhead chars

theorem map_text_lexemesOf_place
    (p : Position) (next : Option Char) {pieces : List Piece}
    (hplain : ∀ piece ∈ pieces, piece.IsPlain) :
    (lexemesOf (place p next pieces)).map (·.text.toList) = lexemeTexts pieces := by
  induction pieces generalizing p with
  | nil => rfl
  | cons piece rest ih =>
      have htail := fun q => ih q fun later hlater =>
        hplain later (List.mem_cons_of_mem piece hlater)
      rw [lexemesOf_place_cons, List.map_append, htail]
      cases piece with
      | blockComment chars closed => exact (hplain _ List.mem_cons_self).elim
      | space c => rfl
      | stray c => rfl
      | lexeme kind chars => simp [lexemes, Lexeme.ofChars, lexemeTexts]

/-! ## Reports of stray characters -/

def strayReports (x : Position × Piece) : List Diagnostic :=
  (x.2.diagnostics x.1).filter Diagnostic.isUnexpectedCharacter

theorem strayReports_eq (p : Position) (piece : Piece) :
    strayReports (p, piece) =
      match piece with
      | .stray c => [⟨.unexpectedCharacter c, p⟩]
      | _ => [] := by
  cases piece with
  | space c => rfl
  | stray c => rfl
  | lexeme kind chars => cases kind <;> rfl
  | blockComment chars closed => cases closed <;> rfl

theorem not_stray_of_mem_ofCommentLines {chars : List Char} {piece : Piece}
    (hpiece : piece ∈ ofCommentLines chars) (c : Char) : piece ≠ .stray c := by
  have hline : ∀ line, ∀ piece ∈ commentLine line, piece ≠ .stray c := by
    intro line piece hpiece
    unfold commentLine at hpiece
    split at hpiece
    · cases hpiece
    · rw [List.mem_singleton.1 hpiece]
      simp
  fun_induction ofCommentLines chars with
  | case1 chars hread => exact hline _ piece hpiece
  | case2 chars b rest hread ih =>
      rw [List.mem_append, List.mem_append] at hpiece
      rcases hpiece with (hcontent | hbreak) | hrest
      · exact hline _ piece hcontent
      · obtain ⟨d, _, rfl⟩ := List.mem_map.1 hbreak
        simp
      · exact ih hrest

theorem flatMap_strayReports_place_eq_nil
    (p : Position) (next : Option Char) {pieces : List Piece}
    (hpieces : ∀ piece ∈ pieces, ∀ c, piece ≠ .stray c) :
    (place p next pieces).flatMap strayReports = [] := by
  induction pieces generalizing p with
  | nil => rfl
  | cons piece rest ih =>
      have hrest := ih (p.after piece.text ((texts rest).head?.or next)) fun later hlater =>
        hpieces later (List.mem_cons_of_mem piece hlater)
      rw [place, List.flatMap_cons, hrest, strayReports_eq]
      cases piece with
      | stray c => exact (hpieces _ List.mem_cons_self c rfl).elim
      | space c => rfl
      | lexeme kind chars => rfl
      | blockComment chars closed => rfl

theorem filter_diagnostics_scan (source : List Char) :
    (scan source).diagnostics.filter Diagnostic.isUnexpectedCharacter =
      (place .start none (ofSource source)).flatMap strayReports := by
  have hcomment : ∀ p chars closed next, ¬ SplitsCrlf chars next →
      (place p next (ofCommentLines chars)).flatMap strayReports =
        strayReports (p, .blockComment chars closed) := by
    intro p chars closed next _
    rw [strayReports_eq]
    exact flatMap_strayReports_place_eq_nil p next fun _ => not_stray_of_mem_ofCommentLines
  rw [ofSource, flatMap_place_plain strayReports hcomment, scan, Scan.ofPlaced,
    List.filter_flatMap]
  rfl

def reportAt (source : List Char) (x : Char × Nat) : Diagnostic :=
  ⟨.unexpectedCharacter x.1, positionAt source x.2⟩

/-- Going on from a place of the source, the reports are the characters of the
gaps that are not blank. -/
theorem flatMap_strayReports_place
    {source : List Char} (before : List Char) (pieces : List Piece)
    (hwhole : before ++ texts pieces = source) (hplain : ∀ piece ∈ pieces, piece.IsPlain) :
    (place (Position.start.after before (texts pieces).head?) none pieces).flatMap
        strayReports =
      ((gapCharacters before.length (gapsOf pieces) (lexemeTexts pieces)).filter
        (!isBlank ·.1)).map (reportAt source) := by
  induction pieces generalizing before with
  | nil => rfl
  | cons piece rest ih =>
      have hnext : (before ++ piece.text) ++ texts rest = source := by
        simpa using hwhole
      have htail := ih (before ++ piece.text) hnext fun later hlater =>
        hplain later (List.mem_cons_of_mem piece hlater)
      rw [place, List.flatMap_cons, after_texts_cons, htail, strayReports_eq, List.length_append]
      obtain ⟨gap, gaps, hgaps⟩ := exists_gapsOf_eq_cons rest
      cases piece with
      | blockComment chars closed => exact (hplain _ List.mem_cons_self).elim
      | lexeme kind chars => rfl
      | space c =>
          have hblank : isBlank c = true := hplain _ List.mem_cons_self
          simp [gapsOf, lexemeTexts, hgaps, text, gapCharacters_cons_head, hblank]
      | stray c =>
          have hblank : isBlank c = false := hplain _ List.mem_cons_self
          have hplace : Position.start.after before (texts (.stray c :: rest)).head? =
              positionAt source before.length := by
            rw [← hwhole]
            exact Position.after_eq_positionAt before _
          simp [gapsOf, lexemeTexts, hgaps, text, gapCharacters_cons_head, hblank, reportAt,
            ← hplace]

end Piece

/-- A source is its lexemes with gaps around them, and the characters in the
gaps that are not blank are, in order and each at its position, those reported
as unexpected. -/
theorem scan_accounts_for_source (source : List Char) :
    ∃ gaps : List (List Char),
      gaps.length = (scan source).lexemes.length + 1 ∧
      interleave gaps ((scan source).lexemes.map (·.text.toList)) = source ∧
      (∀ gap ∈ gaps, ∀ c ∈ gap, isBlank c = true ∨
        ∃ position, ⟨.unexpectedCharacter c, position⟩ ∈ (scan source).diagnostics) ∧
      ((gapCharacters 0 gaps ((scan source).lexemes.map (·.text.toList))).filter
          (!isBlank ·.1)).map (fun x => ⟨.unexpectedCharacter x.1, positionAt source x.2⟩) =
        (scan source).diagnostics.filter Diagnostic.isUnexpectedCharacter := by
  have hplain : ∀ piece ∈ ofSource source, piece.IsPlain := fun _ => isPlain_of_mem_ofSource
  have htexts : (scan source).lexemes.map (·.text.toList) = lexemeTexts (ofSource source) := by
    rw [lexemes_scan, map_text_lexemesOf_place _ _ hplain]
  have hreports := flatMap_strayReports_place [] (ofSource source) (texts_ofSource source) hplain
  have hlength := length_gapsOf (ofSource source)
  have hcount := congrArg List.length htexts
  rw [List.length_map] at hcount
  rw [htexts, filter_diagnostics_scan]
  refine ⟨gapsOf (ofSource source), ?_, ?_, ?_, hreports.symm⟩
  · rw [hlength, hcount]
  · rw [interleave_gapsOf, texts_ofSource]
  · intro gap hgap c hc
    by_cases hblank : isBlank c = true
    · exact .inl hblank
    · obtain ⟨place, hplace⟩ := exists_mem_gapCharacters hlength hgap hc 0
      refine .inr ⟨positionAt source place, ?_⟩
      have hreported : reportAt source (c, place) ∈
          (scan source).diagnostics.filter Diagnostic.isUnexpectedCharacter := by
        rw [filter_diagnostics_scan]
        refine hreports.symm ▸ List.mem_map_of_mem ?_
        exact List.mem_filter.2 ⟨hplace, by simpa using hblank⟩
      exact (List.mem_filter.1 hreported).1

end QasmHighlight
