import QasmHighlight.Lexeme.Scan
import QasmHighlight.Proofs.Lexeme.SingleLine

/-!
# Source text as plain pieces

A block comment is a lexeme for each line on which it has characters, with line
breaks between them.  Taking every block comment apart in this way turns a
source into plain pieces: blank characters, stray characters and lexemes, each
on one line.  The main statement of this file is that placing the plain pieces
one after another gives the lexemes of the scan, so what is proved of plain
pieces by going through them from left to right is proved of the scan.
-/

namespace QasmHighlight

open Text
open Lexeme

namespace Piece

def texts (pieces : List Piece) : List Char :=
  pieces.flatMap text

@[simp] theorem texts_nil : texts [] = [] := rfl

@[simp] theorem texts_cons (piece : Piece) (rest : List Piece) :
    texts (piece :: rest) = piece.text ++ texts rest := rfl

@[simp] theorem texts_append (a b : List Piece) : texts (a ++ b) = texts a ++ texts b :=
  List.flatMap_append

@[simp] theorem texts_map_space (chars : List Char) : texts (chars.map .space) = chars := by
  induction chars with
  | nil => rfl
  | cons c rest ih => simp [text, ih]

/-- The lexeme of one line of a block comment; an empty line has none. -/
def commentLine (line : List Char) : List Piece :=
  if line = [] then [] else [.lexeme .comment line]

private theorem texts_commentLine (line : List Char) : texts (commentLine line) = line := by
  unfold commentLine
  split
  · next hnil => simp [hnil]
  · simp [text]

/-- The plain pieces of a block comment: its lines and, as blank characters, the
line breaks between them. -/
def ofCommentLines (chars : List Char) : List Piece :=
  match _h : LineBreak.read? (afterContent chars) with
  | none => commentLine (lineContent chars)
  | some (b, rest) =>
    commentLine (lineContent chars) ++ b.chars.map .space ++ ofCommentLines rest
termination_by chars.length
decreasing_by exact length_lt_of_read?_afterContent _h

def plain : Piece → List Piece
  | .blockComment chars _ => ofCommentLines chars
  | piece => [piece]

theorem texts_ofCommentLines (chars : List Char) : texts (ofCommentLines chars) = chars := by
  fun_induction ofCommentLines chars with
  | case1 chars hread =>
      rw [texts_commentLine, lineContent_eq_self_of_read?_eq_none hread]
  | case2 chars b rest hread ih =>
      rw [texts_append, texts_append, texts_commentLine, texts_map_space, ih,
        eq_append_of_read?_afterContent hread]

theorem texts_plain (piece : Piece) : texts piece.plain = piece.text := by
  cases piece with
  | blockComment chars closed => exact texts_ofCommentLines chars
  | space c => rfl
  | stray c => rfl
  | lexeme kind chars => simp [plain, text]

private theorem isPlain_of_mem_commentLine {line : List Char}
    (hline : ∀ c ∈ line, isBreak c = false) {piece : Piece}
    (hpiece : piece ∈ commentLine line) : piece.IsPlain := by
  unfold commentLine at hpiece
  split at hpiece
  · cases hpiece
  · next hne =>
    rw [List.mem_singleton.1 hpiece]
    exact ⟨hne, hline⟩

theorem isPlain_of_mem_ofCommentLines {chars : List Char} {piece : Piece}
    (hpiece : piece ∈ ofCommentLines chars) : piece.IsPlain := by
  fun_induction ofCommentLines chars with
  | case1 chars hread =>
      exact isPlain_of_mem_commentLine (lineContent_not_isBreak chars) hpiece
  | case2 chars b rest hread ih =>
      rw [List.mem_append, List.mem_append] at hpiece
      rcases hpiece with (hline | hbreak) | hrest
      · exact isPlain_of_mem_commentLine (lineContent_not_isBreak chars) hline
      · obtain ⟨c, hc, rfl⟩ := List.mem_map.1 hbreak
        exact isBlank_of_isBreak (b.isBreak_of_mem_chars hc)
      · exact ih hrest

theorem IsPlain.plain_eq {piece : Piece} (hplain : piece.IsPlain) : piece.plain = [piece] := by
  cases piece with
  | blockComment chars closed => exact hplain.elim
  | space c => rfl
  | stray c => rfl
  | lexeme kind chars => rfl

theorem isPlain_of_mem_plain_first {c : Char} {rest : List Char} {piece : Piece}
    (hpiece : piece ∈ (first c rest).plain) : piece.IsPlain := by
  rcases isPlain_first_or_blockComment c rest with hplain | ⟨more, _, hcomment⟩
  · rw [hplain.plain_eq] at hpiece
    rw [List.mem_singleton.1 hpiece]
    exact hplain
  · obtain ⟨chars, closed, hchars, _⟩ := ofComment_not_splitsCrlf more
    rw [hcomment, hchars] at hpiece
    exact isPlain_of_mem_ofCommentLines hpiece

/-! ## Placing pieces -/

/-- Pieces with their positions, the first of them at `p`, when `next` comes
after the last. -/
def place (p : Position) (next : Option Char) : List Piece → List (Position × Piece)
  | [] => []
  | piece :: rest =>
    (p, piece) :: place (p.after piece.text ((texts rest).head?.or next)) next rest

theorem place_append (p : Position) (next : Option Char) (a b : List Piece) :
    place p next (a ++ b) =
      place p ((texts b).head?.or next) a ++
        place (p.after (texts a) ((texts b).head?.or next)) next b := by
  induction a generalizing p with
  | nil => rfl
  | cons piece rest ih =>
      simp only [List.cons_append, place, texts_append, texts_cons, ih, Position.after_append,
        List.head?_append, Option.or_assoc]

theorem after_texts_cons (before : List Char) (piece : Piece) (rest : List Piece) :
    (Position.start.after before (texts (piece :: rest)).head?).after
        piece.text ((texts rest).head?.or none) =
      Position.start.after (before ++ piece.text) (texts rest).head? := by
  rw [Position.after_append, texts_cons, List.head?_append, Option.or_none]

def ofSource (source : List Char) : List Piece :=
  (placed .start source).flatMap fun x => x.2.plain

theorem text_first_append_drop (c : Char) (rest : List Char) :
    (first c rest).text ++ (c :: rest).drop (first c rest).text.length = c :: rest :=
  List.prefix_iff_eq_append.1 (isPrefix_first c rest)

theorem placed_cons
    (p : Position) {c : Char} {rest remaining : List Char} {piece : Piece}
    (hfirst : first c rest = piece) (hsource : c :: rest = piece.text ++ remaining) :
    placed p (c :: rest) = (p, piece) :: placed (p.after piece.text remaining.head?) remaining := by
  rw [placed]
  simp [hfirst, hsource]

theorem length_lt_of_first
    {c : Char} {rest remaining : List Char} {piece : Piece}
    (hfirst : first c rest = piece) (hsource : c :: rest = piece.text ++ remaining) :
    remaining.length < (c :: rest).length := by
  have hpos := List.length_pos_iff.2 (text_first_ne_nil c rest)
  rw [hfirst] at hpos
  rw [hsource, List.length_append]
  omega

theorem placed_cons_of_isBlank (p : Position) {c : Char} (hc : isBlank c = true)
    (rest : List Char) :
    placed p (c :: rest) = (p, .space c) :: placed (p.step c rest.head?) rest := by
  have hfirst : first c rest = .space c := by rw [first, if_pos hc]
  exact placed_cons p hfirst rfl

/-- What is read off pieces, but not off blank ones, is read off a text as off
what follows its leading blanks. -/
theorem flatMap_placed_append_of_isBlank
    {β : Type} {f : Position × Piece → List β} (hspace : ∀ p c, f (p, .space c) = [])
    (p : Position) {blanks : List Char} (hblanks : ∀ c ∈ blanks, isBlank c = true)
    (rest : List Char) :
    (placed p (blanks ++ rest)).flatMap f =
      (placed (p.after blanks rest.head?) rest).flatMap f := by
  induction blanks generalizing p with
  | nil => rfl
  | cons c more ih =>
      have hc := hblanks c List.mem_cons_self
      have hmore : ∀ d ∈ more, isBlank d = true := fun d hd =>
        hblanks d (List.mem_cons_of_mem c hd)
      rw [List.cons_append, placed_cons_of_isBlank p hc, List.flatMap_cons, hspace,
        List.nil_append, ih _ hmore, Position.after_cons, List.head?_append]

theorem texts_placed_plain (p : Position) (source : List Char) :
    texts ((placed p source).flatMap fun x => x.2.plain) = source := by
  fun_induction placed p source with
  | case1 p => rfl
  | case2 p c rest piece remaining ih =>
      rw [List.flatMap_cons, texts_append, texts_plain, ih]
      exact text_first_append_drop c rest

theorem texts_ofSource (source : List Char) : texts (ofSource source) = source :=
  texts_placed_plain .start source

theorem isPlain_of_mem_placed_plain {p : Position} {source : List Char} {piece : Piece}
    (hpiece : piece ∈ (placed p source).flatMap fun x => x.2.plain) : piece.IsPlain := by
  fun_induction placed p source with
  | case1 p => cases hpiece
  | case2 p c rest first remaining ih =>
      rw [List.flatMap_cons, List.mem_append] at hpiece
      rcases hpiece with hfirst | hlater
      · exact isPlain_of_mem_plain_first hfirst
      · exact ih hlater

theorem isPlain_of_mem_ofSource {source : List Char} {piece : Piece}
    (hpiece : piece ∈ ofSource source) : piece.IsPlain :=
  isPlain_of_mem_placed_plain hpiece

/-- Whatever is read off pieces and their positions, and off a block comment as off
its lines, is read off the plain pieces as off the scanned ones.  Only a block
comment is taken apart, and it leaves no CRLF half read. -/
theorem flatMap_place_plain {β : Type} (f : Position × Piece → List β)
    (hcomment : ∀ p chars closed next, ¬ SplitsCrlf chars next →
      (place p next (ofCommentLines chars)).flatMap f = f (p, .blockComment chars closed))
    (p : Position) (source : List Char) :
    (place p none ((placed p source).flatMap fun x => x.2.plain)).flatMap f =
      (placed p source).flatMap f := by
  fun_induction placed p source with
  | case1 p => rfl
  | case2 p c rest piece remaining ih =>
      have hremaining := texts_placed_plain (p.after piece.text remaining.head?) remaining
      rw [List.flatMap_cons, List.flatMap_cons, place_append, hremaining, Option.or_none,
        texts_plain, List.flatMap_append, ih]
      congr 1
      rcases isPlain_first_or_blockComment c rest with hplain | ⟨more, hsource, hfirst⟩
      · rw [hplain.plain_eq]
        simp [place, piece]
      · obtain ⟨chars, closed, hchars, hwhole⟩ := ofComment_not_splitsCrlf more
        have hpiece : piece = .blockComment chars closed := hfirst.trans hchars
        have hnext : ¬ SplitsCrlf chars remaining.head? := by
          rw [← hsource] at hwhole
          simpa [remaining, hpiece, text] using hwhole
        rw [hpiece]
        exact hcomment p chars closed _ hnext

/-! ## Lexemes and diagnostics of plain pieces -/

def lexemesOf (placed : List (Position × Piece)) : List Lexeme :=
  placed.flatMap fun x => x.2.lexemes x.1

theorem lexemesOf_append (a b : List (Position × Piece)) :
    lexemesOf (a ++ b) = lexemesOf a ++ lexemesOf b :=
  List.flatMap_append

theorem lexemesOf_place_cons
    (p : Position) (next : Option Char) (piece : Piece) (rest : List Piece) :
    lexemesOf (place p next (piece :: rest)) =
      piece.lexemes p ++
        lexemesOf (place (p.after piece.text ((texts rest).head?.or next)) next rest) :=
  rfl

private theorem fragmentPosition_succ (p : Position) (number : Nat) :
    fragmentPosition p (number + 1) = fragmentPosition ⟨p.line + 1, 0⟩ number := by
  unfold fragmentPosition
  by_cases hzero : number = 0
  · simp [hzero]
  · simp [hzero, Nat.add_assoc, Nat.add_comm 1 number]

def lineLexemes (p : Position) (line : List Char) : List Lexeme :=
  if line = [] then [] else [.ofChars .comment line p]

private theorem lexemesOf_place_commentLine (p : Position) (next : Option Char) (line : List Char) :
    lexemesOf (place p next (commentLine line)) = lineLexemes p line := by
  unfold commentLine lineLexemes
  split
  · rfl
  · rfl

private theorem lexemesOf_place_spaces (p : Position) (next : Option Char) (chars : List Char) :
    lexemesOf (place p next (chars.map .space)) = [] := by
  induction chars generalizing p with
  | nil => rfl
  | cons c rest ih => exact ih _

theorem fragments_of_lines_cons {chars line : List Char} {more : List (List Char)}
    (hlines : lines chars = line :: more) (p : Position) :
    fragments p chars =
      lineLexemes p line ++ ((more.zipIdx.filter (!·.1.isEmpty)).map fun x =>
        .ofChars .comment x.1 (fragmentPosition ⟨p.line + 1, 0⟩ x.2)) := by
  have hlater : ((more.zipIdx 1).filter (!·.1.isEmpty)).map
        (fun x => Lexeme.ofChars .comment x.1 (fragmentPosition p x.2)) =
      (more.zipIdx.filter (!·.1.isEmpty)).map
        (fun x => Lexeme.ofChars .comment x.1 (fragmentPosition ⟨p.line + 1, 0⟩ x.2)) := by
    rw [List.zipIdx_succ, List.filter_map, List.map_map]
    simp only [Function.comp_def, fragmentPosition_succ]
  unfold fragments lineLexemes
  rw [hlines, List.zipIdx_cons, List.filter_cons]
  split
  · next hline =>
    have hne : line ≠ [] := by simpa using hline
    rw [List.map_cons, hlater, if_neg hne]
    rfl
  · next hline =>
    have hnil : line = [] := by simpa using hline
    rw [hlater, if_pos hnil]
    rfl

theorem fragments_of_read?_eq_none {chars : List Char}
    (hread : LineBreak.read? (afterContent chars) = none) (p : Position) :
    fragments p chars = lineLexemes p (lineContent chars) := by
  rw [fragments_of_lines_cons (lines_of_read?_eq_none hread)]
  simp

theorem fragments_of_read?_eq_some {chars rest : List Char} {b : LineBreak}
    (hread : LineBreak.read? (afterContent chars) = some (b, rest)) (p : Position) :
    fragments p chars = lineLexemes p (lineContent chars) ++ fragments ⟨p.line + 1, 0⟩ rest := by
  rw [fragments_of_lines_cons (lines_of_read?_eq_some hread)]
  rfl

/-- Going through the lines of a block comment from its position meets its
lexemes where the scan puts them. -/
theorem lexemesOf_place_ofCommentLines
    (p : Position) (chars : List Char) (next : Option Char) (hwhole : ¬ SplitsCrlf chars next) :
    lexemesOf (place p next (ofCommentLines chars)) = fragments p chars := by
  fun_induction ofCommentLines chars generalizing p with
  | case1 chars hread =>
      rw [lexemesOf_place_commentLine, fragments_of_read?_eq_none hread]
  | case2 chars b rest hread ih =>
      obtain ⟨_, hrest⟩ := not_splitsCrlf_of_read?_afterContent hread hwhole
      have hposition := p.after_firstLine hread hwhole
      rw [place_append, place_append, lexemesOf_append, lexemesOf_append,
        lexemesOf_place_commentLine, lexemesOf_place_spaces, texts_append, texts_commentLine,
        texts_map_space, texts_ofCommentLines, hposition, ih _ hrest,
        fragments_of_read?_eq_some hread, List.append_nil]

theorem lexemes_scan (source : List Char) :
    (scan source).lexemes = lexemesOf (place .start none (ofSource source)) := by
  symm
  exact flatMap_place_plain (fun x => x.2.lexemes x.1)
    (fun p chars _ next hwhole => lexemesOf_place_ofCommentLines p chars next hwhole)
    .start source

end Piece
end QasmHighlight
