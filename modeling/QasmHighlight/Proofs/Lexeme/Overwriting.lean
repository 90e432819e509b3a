import QasmHighlight.Proofs.Lexeme.Blanking
import QasmHighlight.Proofs.Lexeme.Cut

/-!
# Overwriting by position

The positions of a text grow from each character to the next, and no two lexemes
share one.  So the characters at the positions that the comments of a scan cover
are the characters of the comments, and overwriting by position is overwriting
comment by comment.
-/

namespace QasmHighlight

open Text

namespace Text

/-- Whether `p` lies on the stretch of the given length that begins at `start`. -/
def Position.covers (start : Position) (length : Nat) (p : Position) : Bool :=
  start.line = p.line && start.column ≤ p.column && p.column < start.column + length

/-- A text with its characters at certain positions overwritten, each by as many
spaces as it has UTF-16 units. -/
def blankWhere (covered : Position → Bool) (text : List Char) : List Char :=
  text.zipIdx.flatMap fun x => if covered (positionAt text x.2) then spaces x.1 else [x.1]

private theorem bytes_spaces_le (c : Char) : bytes (spaces c) ≤ c.utf8Size := by
  have hreplicate : ∀ count, bytes (List.replicate count ' ') = count := by
    intro count
    induction count with
    | zero => rfl
    | succ count ih =>
        have hsize : ' '.utf8Size = 1 := rfl
        rw [List.replicate_succ, bytes_cons, ih, hsize, Nat.add_comm]
  rw [spaces, hreplicate]
  exact width_le_utf8Size c

private theorem bytes_flatMap_zipIdx_le (covered : Nat → Bool) (text : List Char) (start : Nat) :
    bytes ((text.zipIdx start).flatMap fun x => if covered x.2 then spaces x.1 else [x.1]) ≤
      bytes text := by
  induction text generalizing start with
  | nil => exact Nat.le_refl _
  | cons c rest ih =>
      have hrest := ih (start + 1)
      have hspaces := bytes_spaces_le c
      rw [List.zipIdx_cons, List.flatMap_cons, bytes_append, bytes_cons]
      by_cases hcovered : covered start = true
      · simp only [hcovered, if_true]
        omega
      · simp only [hcovered, Bool.false_eq_true, if_false, bytes_cons, bytes_nil]
        omega

theorem bytes_blankWhere_le (covered : Position → Bool) (text : List Char) :
    bytes (blankWhere covered text) ≤ bytes text :=
  bytes_flatMap_zipIdx_le (fun i => covered (positionAt text i)) text 0

/-! ## Positions grow -/

theorem Position.covers_iff {start p : Position} {length : Nat} :
    start.covers length p = true ↔
      start.line = p.line ∧ start.column ≤ p.column ∧ p.column < start.column + length := by
  simp [Position.covers, and_assoc]

theorem Position.not_covers_of_endsBefore {start p q : Position} {length : Nat}
    (hends : start.EndsBefore length q) (hle : q.EndsBefore 0 p) :
    start.covers length p = false := by
  rw [← Bool.not_eq_true, Position.covers_iff]
  unfold Position.EndsBefore at hends hle
  omega

theorem Position.not_covers_of_before {start p q : Position} {length : Nat}
    (hlt : p.EndsBefore 1 q) (hle : q.EndsBefore 0 start) : start.covers length p = false := by
  rw [← Bool.not_eq_true, Position.covers_iff]
  unfold Position.EndsBefore at hlt hle
  omega

theorem Position.endsBefore_step (p : Position) (c : Char) (next : Option Char) :
    p.EndsBefore 1 (p.step c next) := by
  have hpos := width_pos c
  unfold Position.step
  split
  · exact .inl (Nat.lt_succ_self p.line)
  · refine .inr ⟨rfl, ?_⟩
    dsimp only
    omega

theorem positionAt_endsBefore (text : List Char) {i j : Nat} (hij : i < j)
    (hj : j ≤ text.length) : (positionAt text i).EndsBefore 1 (positionAt text j) := by
  have hi : i < text.length := by omega
  have htake : text.take j = text.take i ++ text[i] :: (text.drop (i + 1)).take (j - i - 1) := by
    have hlength : i + (j - i - 1 + 1) = j := by omega
    have hadd := List.take_add (l := text) (i := i) (j := j - i - 1 + 1)
    rw [hlength, List.drop_eq_getElem_cons hi, List.take_succ_cons] at hadd
    exact hadd
  have hprev := Position.after_take_eq_positionAt text (Nat.le_of_lt hi)
  rw [List.getElem?_eq_getElem hi] at hprev
  rw [← Position.after_take_eq_positionAt text hj, htake, Position.after_append, List.head?_cons,
    Option.some_or, hprev, Position.after_cons]
  have hstep := (positionAt text i).endsBefore_step text[i]
    (((text.drop (i + 1)).take (j - i - 1)).head?.or text[j]?)
  have hrest := Position.le_after ((positionAt text i).step text[i]
    (((text.drop (i + 1)).take (j - i - 1)).head?.or text[j]?))
    ((text.drop (i + 1)).take (j - i - 1)) text[j]?
  unfold Position.EndsBefore at hstep ⊢
  omega

theorem positionAt_le (text : List Char) {i j : Nat} (hij : i ≤ j) (hj : j ≤ text.length) :
    (positionAt text i).EndsBefore 0 (positionAt text j) := by
  rcases Nat.lt_or_eq_of_le hij with hlt | rfl
  · have hbefore := positionAt_endsBefore text hlt hj
    unfold Position.EndsBefore at hbefore ⊢
    omega
  · exact .inr ⟨rfl, Nat.le_refl _⟩

theorem Position.EndsBefore.trans_le {p q r : Position} {length : Nat}
    (hends : p.EndsBefore length q) (hle : q.EndsBefore 0 r) : p.EndsBefore length r := by
  unfold Position.EndsBefore at hends hle ⊢
  omega

end Text

/-- Whether a position lies on one of the comments among lexemes. -/
def Lexeme.commentAt (lexemes : List Lexeme) (p : Position) : Bool :=
  lexemes.any fun lexeme => lexeme.isComment && lexeme.position.covers lexeme.length p

theorem Lexeme.commentAt_append (a b : List Lexeme) (p : Position) :
    commentAt (a ++ b) p = (commentAt a p || commentAt b p) :=
  List.any_append

theorem Lexeme.commentAt_eq_false {lexemes : List Lexeme} {p : Position}
    (hcovers : ∀ lexeme ∈ lexemes, lexeme.position.covers lexeme.length p = false) :
    commentAt lexemes p = false := by
  rw [commentAt, List.any_eq_false]
  intro lexeme hlexeme
  simp [hcovers lexeme hlexeme]

namespace Piece

open Lexeme

/-! ## Pieces without their block comments -/

private theorem flatMap_blanked_spaces {chars : List Char}
    (hchars : ∀ c ∈ chars, isBreak c = true) :
    (chars.map Piece.space).flatMap blanked = blankOut chars := by
  induction chars with
  | nil => rfl
  | cons c rest ih =>
      have hrest := ih fun d hd => hchars d (List.mem_cons_of_mem c hd)
      rw [List.map_cons, List.flatMap_cons, hrest,
        blankOut_cons_of_isBreak (hchars c List.mem_cons_self)]
      rfl

private theorem flatMap_blanked_commentLine (line : List Char) :
    (commentLine line).flatMap blanked = blankOut line := by
  unfold commentLine
  split
  · next hnil =>
    rw [hnil]
    rfl
  · simp [blanked, isComment, text]

theorem flatMap_blanked_ofCommentLines (chars : List Char) :
    (ofCommentLines chars).flatMap blanked = blankOut chars := by
  fun_induction ofCommentLines chars with
  | case1 chars hread =>
      rw [flatMap_blanked_commentLine, lineContent_eq_self_of_read?_eq_none hread]
  | case2 chars b rest hread ih =>
      rw [List.flatMap_append, List.flatMap_append, flatMap_blanked_commentLine,
        flatMap_blanked_spaces fun _ => b.isBreak_of_mem_chars, ih, ← blankOut_append,
        ← blankOut_append, eq_append_of_read?_afterContent hread]

theorem flatMap_blanked_plain (piece : Piece) : piece.plain.flatMap blanked = piece.blanked := by
  cases piece with
  | blockComment chars closed => exact flatMap_blanked_ofCommentLines chars
  | space c => rfl
  | stray c => rfl
  | lexeme kind chars => simp [plain]

theorem flatMap_blanked_ofSource (source : List Char) :
    (ofSource source).flatMap blanked = blankedFrom .start source := by
  rw [ofSource, List.flatMap_assoc, blankedFrom]
  simp only [flatMap_blanked_plain]

/-! ## The positions of a piece -/

section

variable {source : List Char}

private theorem flatMap_zipIdx_text
    {covered : Position → Bool} {piece : Piece} (hplain : piece.IsPlain) {start : Nat}
    (hcovered : ∀ i, start ≤ i → i < start + piece.text.length →
      covered (positionAt source i) = piece.isComment) :
    (piece.text.zipIdx start).flatMap
        (fun x => if covered (positionAt source x.2) then spaces x.1 else [x.1]) =
      piece.blanked := by
  have hsame : ∀ x ∈ piece.text.zipIdx start,
      (if covered (positionAt source x.2) then spaces x.1 else [x.1]) =
        if piece.isComment then spaces x.1 else [x.1] := by
    rintro ⟨c, i⟩ hx
    obtain ⟨hlow, hhigh, _⟩ := List.mem_zipIdx hx
    rw [hcovered i hlow hhigh]
  have hchars : ∀ g : Char → List Char,
      (piece.text.zipIdx start).flatMap (fun x => g x.1) = piece.text.flatMap g := by
    intro g
    conv_rhs => rw [← List.zipIdx_map_fst start piece.text, List.flatMap_map]
  rw [List.flatMap_congr hsame, hchars fun c => if piece.isComment then spaces c else [c], blanked]
  by_cases hcomment : piece.isComment = true
  · simp only [hcomment, if_true, blankOut]
    refine List.flatMap_congr fun c hc => ?_
    have hbreak : isBreak c = false := by
      cases piece with
      | space c => cases hcomment
      | stray c => cases hcomment
      | blockComment chars closed => exact hplain.elim
      | lexeme kind chars => exact hplain.2 c hc
    simp [hbreak]
  · simp [hcomment]

theorem positionAt_of_forall_not_isBreak
    {before chars following : List Char} (hwhole : before ++ chars ++ following = source)
    (hchars : ∀ c ∈ chars, isBreak c = false) :
    positionAt source (before.length + chars.length) =
      ⟨(positionAt source before.length).line,
        (positionAt source before.length).column + units chars⟩ := by
  have hstart := Position.after_eq_positionAt before (chars ++ following)
  have hstop := Position.after_eq_positionAt (before ++ chars) following
  rw [← List.append_assoc, hwhole, List.head?_append] at hstart
  rw [hwhole, Position.after_append, hstart, Position.after_of_forall_not_isBreak _ hchars,
    List.length_append] at hstop
  exact hstop.symm

theorem lexemesOf_place_positionAt
    {before : List Char} {piece : Piece} {rest : List Piece}
    (hwhole : before ++ texts (piece :: rest) = source) :
    lexemesOf (place (positionAt source before.length) none (piece :: rest)) =
      piece.lexemes (positionAt source before.length) ++
        lexemesOf (place (positionAt source (before ++ piece.text).length) none rest) := by
  have hnext : (before ++ piece.text) ++ texts rest = source := by
    simpa using hwhole
  have hstart := Position.after_eq_positionAt before (texts (piece :: rest))
  have hstop := Position.after_eq_positionAt (before ++ piece.text) (texts rest)
  rw [hwhole] at hstart
  rw [hnext] at hstop
  rw [← hstart, ← hstop, lexemesOf_place_cons, after_texts_cons]

theorem exists_positionAt_of_mem_lexemesOf
    {before : List Char} {pieces : List Piece} (hwhole : before ++ texts pieces = source)
    (hplain : ∀ piece ∈ pieces, piece.IsPlain) {lexeme : Lexeme}
    (hlexeme : lexeme ∈ lexemesOf (place (positionAt source before.length) none pieces)) :
    ∃ i, before.length ≤ i ∧ i ≤ source.length ∧ lexeme.position = positionAt source i := by
  induction pieces generalizing before with
  | nil => cases hlexeme
  | cons piece rest ih =>
      have hnext : (before ++ piece.text) ++ texts rest = source := by
        simpa using hwhole
      rw [lexemesOf_place_positionAt hwhole, List.mem_append] at hlexeme
      rcases hlexeme with hown | hlater
      · refine ⟨before.length, Nat.le_refl _, ?_, ?_⟩
        · rw [← hwhole, List.length_append]
          omega
        · cases piece with
          | space c => cases hown
          | stray c => cases hown
          | blockComment chars closed => exact (hplain _ List.mem_cons_self).elim
          | lexeme kind chars => rw [List.mem_singleton.1 hown, Lexeme.ofChars]
      · have hrest : ∀ later ∈ rest, later.IsPlain := fun later hmem =>
          hplain later (List.mem_cons_of_mem piece hmem)
        obtain ⟨i, hlow, hhigh, hposition⟩ := ih hnext hrest hlater
        rw [List.length_append] at hlow
        exact ⟨i, by omega, hhigh, hposition⟩

theorem endsBefore_of_mem_lexemes
    {before following : List Char} {piece : Piece} (hplain : piece.IsPlain)
    (hwhole : before ++ piece.text ++ following = source) {lexeme : Lexeme}
    (hlexeme : lexeme ∈ piece.lexemes (positionAt source before.length)) :
    lexeme.position.EndsBefore lexeme.length
      (positionAt source (before ++ piece.text).length) := by
  cases piece with
  | space c => cases hlexeme
  | stray c => cases hlexeme
  | blockComment chars closed => exact hplain.elim
  | lexeme kind chars =>
      rw [List.mem_singleton.1 hlexeme, List.length_append,
        positionAt_of_forall_not_isBreak hwhole hplain.2]
      exact .inr ⟨rfl, Nat.le_refl _⟩

/-- On the positions of a piece there is a comment only if the piece is one: what
came before ends where the piece begins, and what comes later begins where it
ends. -/
theorem commentAt_of_piece
    {before following : List Char} {piece : Piece} (hplain : piece.IsPlain)
    (hwhole : before ++ piece.text ++ following = source)
    {earlier later : List Lexeme}
    (hearlier : ∀ lexeme ∈ earlier,
      lexeme.position.EndsBefore lexeme.length (positionAt source before.length))
    (hlater : ∀ lexeme ∈ later,
      (positionAt source (before ++ piece.text).length).EndsBefore 0 lexeme.position)
    {i : Nat} (hlow : before.length ≤ i) (hhigh : i < before.length + piece.text.length) :
    commentAt (earlier ++ (piece.lexemes (positionAt source before.length) ++ later))
      (positionAt source i) = piece.isComment := by
  rw [List.length_append] at hlater
  have hlength : before.length + piece.text.length ≤ source.length := by
    rw [← hwhole, List.length_append, List.length_append]
    omega
  have hstart := positionAt_le source hlow (by omega)
  have hend := positionAt_endsBefore source hhigh hlength
  have hbefore : commentAt earlier (positionAt source i) = false :=
    commentAt_eq_false fun lexeme hlexeme =>
      Position.not_covers_of_endsBefore (hearlier lexeme hlexeme) hstart
  have hafter : commentAt later (positionAt source i) = false :=
    commentAt_eq_false fun lexeme hlexeme =>
      Position.not_covers_of_before hend (hlater lexeme hlexeme)
  rw [commentAt_append, commentAt_append, hbefore, hafter, Bool.false_or, Bool.or_false]
  cases piece with
  | space c => rfl
  | stray c => rfl
  | blockComment chars closed => exact hplain.elim
  | lexeme kind chars =>
      have hcovers : (positionAt source before.length).covers (units chars)
          (positionAt source i) = true := by
        rw [positionAt_of_forall_not_isBreak hwhole hplain.2] at hend
        rw [Position.covers_iff]
        unfold Position.EndsBefore at hstart hend
        dsimp only [text] at hend
        omega
      simp only [commentAt, lexemes, Lexeme.ofChars, List.any_cons, List.any_nil, Bool.or_false,
        hcovers, Bool.and_true]
      cases kind <;> rfl

/-- Going through the pieces from left to right, the lexemes met so far end at or
before the place reached, and those to come begin there or after. -/
theorem flatMap_zipIdx_texts
    (before : List Char) (pieces : List Piece) (hwhole : before ++ texts pieces = source)
    (hplain : ∀ piece ∈ pieces, piece.IsPlain) (earlier : List Lexeme)
    (hearlier : ∀ lexeme ∈ earlier,
      lexeme.position.EndsBefore lexeme.length (positionAt source before.length)) :
    ((texts pieces).zipIdx before.length).flatMap
        (fun x =>
          if commentAt
              (earlier ++ lexemesOf (place (positionAt source before.length) none pieces))
              (positionAt source x.2)
          then spaces x.1 else [x.1]) =
      pieces.flatMap blanked := by
  induction pieces generalizing before earlier with
  | nil => rfl
  | cons piece rest ih =>
      have hpiece := hplain piece List.mem_cons_self
      have hrest : ∀ later ∈ rest, later.IsPlain := fun later hmem =>
        hplain later (List.mem_cons_of_mem piece hmem)
      have hnext : (before ++ piece.text) ++ texts rest = source := by
        simpa using hwhole
      have hlength : (before ++ piece.text).length ≤ source.length := by
        rw [← hnext]
        exact (List.prefix_append _ _).length_le
      have hlater : ∀ lexeme ∈ lexemesOf
          (place (positionAt source (before ++ piece.text).length) none rest),
          (positionAt source (before ++ piece.text).length).EndsBefore 0 lexeme.position := by
        intro lexeme hlexeme
        obtain ⟨i, hlow, hhigh, hposition⟩ :=
          exists_positionAt_of_mem_lexemesOf hnext hrest hlexeme
        rw [hposition]
        exact positionAt_le source hlow hhigh
      have hearlier' : ∀ lexeme ∈ earlier ++ piece.lexemes (positionAt source before.length),
          lexeme.position.EndsBefore lexeme.length
            (positionAt source (before ++ piece.text).length) := by
        intro lexeme hlexeme
        rcases List.mem_append.1 hlexeme with hmem | hown
        · have hle := positionAt_le source (List.prefix_append before piece.text).length_le hlength
          exact (hearlier lexeme hmem).trans_le hle
        · exact endsBefore_of_mem_lexemes hpiece hnext hown
      have hhead := flatMap_zipIdx_text hpiece fun i hlow hhigh =>
        commentAt_of_piece hpiece hnext hearlier hlater hlow hhigh
      have htail := ih (before ++ piece.text) hnext hrest _ hearlier'
      rw [List.length_append] at htail
      rw [lexemesOf_place_positionAt hwhole, texts_cons, List.zipIdx_append,
        List.flatMap_append, hhead, List.flatMap_cons, ← htail, List.append_assoc,
        List.length_append]

end

end Piece

/-- Overwriting the positions of its comments overwrites the comments of a text. -/
theorem blankWhere_commentAt (source : List Char) :
    blankWhere (Lexeme.commentAt (scan source).lexemes) source =
      Piece.blankedFrom .start source := by
  have hpieces := Piece.flatMap_zipIdx_texts [] (Piece.ofSource source)
    (Piece.texts_ofSource source) (fun _ => Piece.isPlain_of_mem_ofSource) []
    (fun lexeme hlexeme => by cases hlexeme)
  rw [Piece.texts_ofSource] at hpieces
  have hstart : positionAt source 0 = .start :=
    (Position.after_take_eq_positionAt source (Nat.zero_le _)).symm
  rw [List.length_nil, hstart, ← Piece.lexemes_scan, Piece.flatMap_blanked_ofSource] at hpieces
  exact hpieces

end QasmHighlight
