import Mathlib.Data.List.Forall2
import QasmHighlight.Proofs.Lexeme.PlainPiece
import QasmHighlight.Proofs.Text.ByteSlice

/-!
# Where lexemes are cut out of their source

The scan gives a lexeme a line and a column and forgets where in the source its
characters stood.  A cut remembers it: it is a stretch of a source together with
all that stands before and after.  The cuts of a source are found by going
through its plain pieces, and each of them holds the lexeme of the same number:
the text is the lexeme's text, and the lexeme's position is that of the place at
which the cut begins.
-/

namespace QasmHighlight

open Text
open Piece

/-- A stretch of a source, with what stands before it and after it. -/
structure Cut (source : List Char) where
  before : List Char
  text : List Char
  after : List Char
  whole : before ++ text ++ after = source

namespace Cut

variable {source : List Char}

def offset (cut : Cut source) : Nat :=
  bytes cut.before

theorem slice_offset (cut : Cut source) :
    slice cut.offset (cut.offset + bytes cut.text) source = cut.text := by
  have hslice := slice_append cut.before cut.text cut.after
  rw [cut.whole] at hslice
  exact hslice

theorem take_length_before (cut : Cut source) : source.take cut.before.length = cut.before := by
  obtain ⟨before, text, after, rfl⟩ := cut
  simp

theorem drop_length_text (cut : Cut source) :
    source.drop (cut.before.length + cut.text.length) = cut.after := by
  obtain ⟨before, text, after, rfl⟩ := cut
  dsimp only
  rw [← List.length_append, List.drop_left]

/-- A content that stands at a cut with its position and its length; it is not
empty and keeps to one line. -/
structure Holds (cut : Cut source) (content : String) (position : Position) (length : Nat) :
    Prop where
  content_eq : content = String.ofList cut.text
  position_eq : position = positionAt source cut.before.length
  length_eq : length = units cut.text
  text_ne_nil : cut.text ≠ []
  text_not_isBreak : ∀ c ∈ cut.text, isBreak c = false

theorem Holds.toList_content {cut : Cut source} {content : String} {position : Position}
    {length : Nat} (hholds : cut.Holds content position length) : content.toList = cut.text := by
  rw [hholds.content_eq, String.toList_ofList]

theorem Holds.length_pos {cut : Cut source} {content : String} {position : Position}
    {length : Nat} (hholds : cut.Holds content position length) : 0 < length := by
  rw [hholds.length_eq]
  exact units_pos hholds.text_ne_nil

end Cut

/-- The cuts at the lexemes among pieces that come after `before`. -/
def cutsFrom {source : List Char} (before : List Char) (pieces : List Piece)
    (hwhole : before ++ texts pieces = source) : List (Cut source) :=
  match pieces with
  | [] => []
  | .lexeme _ chars :: rest =>
    ⟨before, chars, texts rest, by simpa [Piece.text] using hwhole⟩ ::
      cutsFrom (before ++ chars) rest (by simpa [Piece.text] using hwhole)
  | .space c :: rest => cutsFrom (before ++ [c]) rest (by simpa [Piece.text] using hwhole)
  | .stray c :: rest => cutsFrom (before ++ [c]) rest (by simpa [Piece.text] using hwhole)
  | .blockComment chars _ :: rest =>
    cutsFrom (before ++ chars) rest (by simpa [Piece.text] using hwhole)

def cuts (source : List Char) : List (Cut source) :=
  cutsFrom [] (ofSource source) (texts_ofSource source)

theorem forall₂_cutsFrom
    {source : List Char} (before : List Char) (pieces : List Piece)
    (hwhole : before ++ texts pieces = source) (hplain : ∀ piece ∈ pieces, piece.IsPlain) :
    List.Forall₂ (fun cut lexeme => cut.Holds lexeme.text lexeme.position lexeme.length)
      (cutsFrom before pieces hwhole)
      (lexemesOf (place (Position.start.after before (texts pieces).head?) none pieces)) := by
  induction pieces generalizing before with
  | nil => exact .nil
  | cons piece rest ih =>
      have hrest : ∀ later ∈ rest, later.IsPlain := by
        intro later hlater
        exact hplain later (List.mem_cons_of_mem piece hlater)
      have hnext : (before ++ piece.text) ++ texts rest = source := by
        simpa using hwhole
      rw [lexemesOf_place_cons, after_texts_cons]
      have htail := ih (before ++ piece.text) hnext hrest
      cases piece with
      | blockComment chars closed =>
          exact (hplain _ List.mem_cons_self).elim
      | space c => exact htail
      | stray c => exact htail
      | lexeme kind chars =>
          obtain ⟨hne, honeLine⟩ := hplain _ List.mem_cons_self
          refine .cons ⟨rfl, ?_, rfl, hne, honeLine⟩ htail
          subst hwhole
          exact Position.after_eq_positionAt before _

/-- Each cut of a source holds the lexeme of the same number. -/
theorem forall₂_cuts (source : List Char) :
    List.Forall₂ (fun cut lexeme => cut.Holds lexeme.text lexeme.position lexeme.length)
      (cuts source) (scan source).lexemes := by
  rw [lexemes_scan]
  exact forall₂_cutsFrom [] (ofSource source) _ (fun _ => isPlain_of_mem_ofSource)

theorem exists_getElem?_of_forall₂ {α β : Type} {R : α → β → Prop} {as : List α} {bs : List β}
    (hpairs : List.Forall₂ R as bs) {k : Nat} {b : β} (hb : bs[k]? = some b) :
    ∃ a, as[k]? = some a ∧ R a b := by
  obtain ⟨hk, rfl⟩ := List.getElem?_eq_some_iff.1 hb
  have hk' : k < as.length := by
    rw [hpairs.length_eq]
    exact hk
  exact ⟨as[k], List.getElem?_eq_getElem hk', hpairs.get hk' hk⟩

/-! ## Cuts do not overlap -/

private theorem before_isPrefix_of_mem_cutsFrom
    {source before : List Char} {pieces : List Piece} {hwhole : before ++ texts pieces = source}
    {cut : Cut source} (hcut : cut ∈ cutsFrom before pieces hwhole) :
    before <+: cut.before := by
  induction pieces generalizing before with
  | nil => cases hcut
  | cons piece rest ih =>
      cases piece with
      | lexeme kind chars =>
          rcases List.mem_cons.1 hcut with rfl | hlater
          · exact List.prefix_rfl
          · exact (List.prefix_append before chars).trans (ih hlater)
      | space c => exact (List.prefix_append before [c]).trans (ih hcut)
      | stray c => exact (List.prefix_append before [c]).trans (ih hcut)
      | blockComment chars closed => exact (List.prefix_append before chars).trans (ih hcut)

theorem pairwise_cutsFrom
    {source : List Char} (before : List Char) (pieces : List Piece)
    (hwhole : before ++ texts pieces = source) :
    (cutsFrom before pieces hwhole).Pairwise fun a b => a.before ++ a.text <+: b.before := by
  induction pieces generalizing before with
  | nil => exact .nil
  | cons piece rest ih =>
      cases piece with
      | lexeme kind chars =>
          refine .cons ?_ (ih _ _)
          intro later hlater
          exact before_isPrefix_of_mem_cutsFrom hlater
      | space c => exact ih _ _
      | stray c => exact ih _ _
      | blockComment chars closed => exact ih _ _

theorem pairwise_cuts (source : List Char) :
    (cuts source).Pairwise fun a b => a.before ++ a.text <+: b.before :=
  pairwise_cutsFrom [] (ofSource source) _

/-- A stretch of the given length at a position of one line ends at or before a
second position. -/
def Text.Position.EndsBefore (p : Position) (length : Nat) (q : Position) : Prop :=
  p.line < q.line ∨ p.line = q.line ∧ p.column + length ≤ q.column

namespace Cut

variable {source : List Char}

theorem Holds.position_eq_after
    {cut : Cut source} {content : String} {position : Position} {length : Nat}
    (hholds : cut.Holds content position length) (next : Option Char) :
    position = Position.start.after cut.before (cut.text.head?.or next) := by
  have hreached := Position.after_eq_positionAt cut.before (cut.text ++ cut.after)
  rw [← List.append_assoc, cut.whole, ← hholds.position_eq] at hreached
  obtain ⟨c, more, htext⟩ := List.exists_cons_of_ne_nil hholds.text_ne_nil
  rw [← hreached, htext]
  rfl

theorem Holds.after_text
    {cut : Cut source} {content : String} {position : Position} {length : Nat}
    (hholds : cut.Holds content position length) (next : Option Char) :
    Position.start.after (cut.before ++ cut.text) next =
      ⟨position.line, position.column + length⟩ := by
  rw [Position.after_append, ← hholds.position_eq_after,
    Position.after_of_forall_not_isBreak _ hholds.text_not_isBreak, hholds.length_eq]

theorem Holds.endsBefore
    {a b : Cut source} {content content' : String} {p q : Position} {length length' : Nat}
    (ha : a.Holds content p length) (hb : b.Holds content' q length')
    (horder : a.before ++ a.text <+: b.before) : p.EndsBefore length q := by
  obtain ⟨gap, hgap⟩ := horder
  rw [hb.position_eq_after none, ← hgap, Position.after_append, ha.after_text]
  unfold Position.EndsBefore
  exact Position.le_after ⟨p.line, p.column + length⟩ gap _

end Cut
end QasmHighlight
