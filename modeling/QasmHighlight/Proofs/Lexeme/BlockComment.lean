import Mathlib.Order.Bounds.Basic
import QasmHighlight.Proofs.Lexeme.Locality
import QasmHighlight.Proofs.Lexeme.Stop

/-!
# The extent of block comments

A block comment ends at the first `*/` that begins after its opening `/*`, so the
two do not share the star.  Without one it is all that remains.  The comment is
cut at its line breaks, and each part that is not empty is a lexeme on a line of
its own.  Only a comment without an end is reported, once and where it begins.
-/

namespace QasmHighlight

open Text

/-- The comment delimiter stands at a place of a text. -/
def ClosesAt (text : List Char) (place : Nat) : Prop :=
  ['*', '/'] <+: text.drop place

instance (text : List Char) (place : Nat) : Decidable (ClosesAt text place) :=
  inferInstanceAs (Decidable (['*', '/'] <+: text.drop place))

/-- The lexemes of the lines of a comment, the first of them at `p` and every other
at the margin of the line below. -/
def commentLexemes (p : Position) : List (List Char) → List Lexeme
  | [] => []
  | line :: below =>
    (if line = [] then [] else [.ofChars .comment line p]) ++
      commentLexemes ⟨p.line + 1, 0⟩ below

namespace Lexeme

private theorem closesAt_zero_iff {c : Char} {rest : List Char} :
    ClosesAt (c :: rest) 0 ↔ c = '*' ∧ rest.head? = some '/' := by
  rw [ClosesAt, List.drop_zero, List.cons_prefix_cons, List.head?_eq_some_iff]
  constructor
  · rintro ⟨rfl, more, rfl⟩
    exact ⟨rfl, more, rfl⟩
  · rintro ⟨rfl, more, rfl⟩
    exact ⟨rfl, more, rfl⟩

theorem commentEnd?_eq_some_of_isLeast {text : List Char} {place : Nat}
    (hfirst : IsLeast {j | ClosesAt text j} place) (before : Nat) :
    commentEnd? before text = some (before + place) := by
  obtain ⟨hcloses, hleast⟩ := hfirst
  induction text generalizing place before with
  | nil =>
      simp [ClosesAt] at hcloses
  | cons c rest ih =>
      by_cases hhere : ClosesAt (c :: rest) 0
      · obtain rfl := Nat.le_zero.1 (hleast hhere)
        rw [commentEnd?, if_pos (closesAt_zero_iff.1 hhere), Nat.add_zero]
      · cases place with
        | zero => exact absurd hcloses hhere
        | succ place =>
            have hlater := ih (before + 1) hcloses fun j hj => Nat.le_of_succ_le_succ (hleast hj)
            rw [commentEnd?, if_neg (mt closesAt_zero_iff.2 hhere), hlater]
            congr 1
            omega

theorem commentEnd?_eq_none {text : List Char} (hnone : ∀ place, ¬ ClosesAt text place)
    (before : Nat) : commentEnd? before text = none := by
  rw [Option.eq_none_iff_forall_ne_some]
  intro count hfound
  obtain ⟨inside, after, rfl, _⟩ := exists_append_of_commentEnd? hfound
  apply hnone inside.length
  rw [ClosesAt, List.drop_left]
  exact List.prefix_append ['*', '/'] after

end Lexeme

namespace Piece

open Lexeme

theorem fragments_eq_commentLexemes {text : List Char} {pieces : List (List Char)}
    (hsplit : LineSplit text pieces) (p : Position) :
    fragments p text = commentLexemes p pieces := by
  induction hsplit generalizing p with
  | last hline =>
      have hread := read?_afterContent_of_not_isBreak hline
      rw [fragments_of_read?_eq_none hread, lineContent_eq_self_of_read?_eq_none hread]
      exact (List.append_nil _).symm
  | cons b hline hb _ ih =>
      rw [fragments_of_read?_eq_some (read?_afterContent_append_chars hline _ hb),
        lineContent_append_chars hline, ih]
      rfl

theorem ofComment_of_isLeast {more : List Char} {place : Nat}
    (hfirst : IsLeast {j | ClosesAt more j} place) :
    ofComment more = .blockComment ('/' :: '*' :: more.take (place + 2)) true := by
  simp only [ofComment, commentEnd?_eq_some_of_isLeast hfirst, Nat.zero_add]

theorem ofComment_of_forall_not_closesAt {more : List Char}
    (hnone : ∀ place, ¬ ClosesAt more place) :
    ofComment more = .blockComment ('/' :: '*' :: more) false := by
  simp only [ofComment, commentEnd?_eq_none hnone]

end Piece

namespace Stop

variable {source more : List Char}

theorem closesAt_add_iff (stop : Stop source) (hopen : stop.rest = '/' :: '*' :: more)
    (place : Nat) : ClosesAt source (stop.before.length + 2 + place) ↔ ClosesAt more place := by
  have hdrop : source.drop (stop.before.length + 2 + place) = more.drop place := by
    rw [Nat.add_assoc, ← List.drop_drop, stop.drop_length_before, hopen, Nat.add_comm 2]
    rfl
  rw [ClosesAt, ClosesAt, hdrop]

theorem exists_isLeast_closesAt (stop : Stop source) (hopen : stop.rest = '/' :: '*' :: more)
    {place : Nat}
    (hfirst : IsLeast {j | stop.before.length + 2 ≤ j ∧ ClosesAt source j} place) :
    ∃ inside, place = stop.before.length + 2 + inside ∧ IsLeast {j | ClosesAt more j} inside := by
  obtain ⟨⟨hafter, hcloses⟩, hleast⟩ := hfirst
  obtain ⟨inside, rfl⟩ := Nat.exists_eq_add_of_le hafter
  refine ⟨inside, rfl, (stop.closesAt_add_iff hopen inside).1 hcloses, ?_⟩
  intro j hj
  have hle := hleast ⟨Nat.le_add_right _ j, (stop.closesAt_add_iff hopen j).2 hj⟩
  exact Nat.le_of_add_le_add_left hle

end Stop

/-- Where scanning comes to the opening of a block comment, it reads the source up
to the first end of a comment after the opening, or all of it if there is none.
It gives a comment for each line of this text that is not empty, and a diagnostic
if there is no end. -/
theorem blockComment_extent_exact {source more : List Char} (stop : Stop source)
    (hopen : stop.rest = '/' :: '*' :: more) :
    (∀ place, IsLeast {j | stop.before.length + 2 ≤ j ∧ ClosesAt source j} place →
      (stop.next hopen).before = source.take (place + 2) ∧
      ∃ pieces,
        (∀ other, LineSplit ((source.take (place + 2)).drop stop.before.length) other ↔
          other = pieces) ∧
        scan source =
          ⟨stop.found.lexemes ++ commentLexemes stop.position pieces ++
              (stop.next hopen).ahead.lexemes,
            stop.found.diagnostics ++ (stop.next hopen).ahead.diagnostics⟩) ∧
    ((∀ place, stop.before.length + 2 ≤ place → ¬ ClosesAt source place) →
      (stop.next hopen).before = source ∧
      ∃ pieces,
        (∀ other, LineSplit (source.drop stop.before.length) other ↔ other = pieces) ∧
        scan source =
          ⟨stop.found.lexemes ++ commentLexemes stop.position pieces,
            stop.found.diagnostics ++ [⟨.unterminatedBlockComment, stop.position⟩]⟩) := by
  have hscan := stop.scan_eq_next hopen
  have hbefore := stop.before_next hopen
  rw [Piece.first_slash_star] at hscan hbefore
  constructor
  · intro place hfirst
    obtain ⟨inside, rfl, hinside⟩ := stop.exists_isLeast_closesAt hopen hfirst
    have hpiece := Piece.ofComment_of_isLeast hinside
    have htake : source.take (stop.before.length + 2 + inside + 2) =
        stop.before ++ '/' :: '*' :: more.take (inside + 2) := by
      have hcount : stop.before.length + 2 + inside + 2 =
          stop.before.length + (inside + 2 + 2) := by omega
      rw [hcount, stop.take_length_before_add, hopen]
      rfl
    rw [hpiece] at hscan hbefore
    rw [htake, List.drop_left]
    refine ⟨hbefore, _, fun _ => lineSplit_iff, ?_⟩
    rw [hscan, ← Piece.fragments_eq_commentLexemes (lineSplit_lines _)]
    simp only [Piece.lexemes, Piece.diagnostics, List.append_nil]
  · intro hnone
    have hpiece := Piece.ofComment_of_forall_not_closesAt fun place hcloses =>
      hnone _ (Nat.le_add_right _ place) ((stop.closesAt_add_iff hopen place).2 hcloses)
    have hend : (stop.next hopen).rest = [] := by
      rw [stop.rest_next, Piece.first_slash_star, hpiece]
      exact List.drop_length
    have hahead : (stop.next hopen).ahead = ⟨[], []⟩ := by
      rw [Stop.ahead, hend, Piece.placed]
      rfl
    rw [hpiece] at hscan hbefore
    rw [stop.drop_length_before, hopen]
    refine ⟨?_, _, fun _ => lineSplit_iff, ?_⟩
    · rw [hbefore, Piece.text, ← hopen, stop.before_append_rest]
    · rw [hscan, hahead, ← Piece.fragments_eq_commentLexemes (lineSplit_lines _)]
      simp only [Piece.lexemes, Piece.diagnostics, List.append_nil]

/-- A comment with a CRLF and an empty line in it, whose `/*/` does not end it, and
one without an end. -/
theorem blockComment_extent_exact_shared_star :
    let closed := ['/', '*', '/', '\r', '\n', '\r', '*', '*', '/', 'x']
    let unclosed := ['/', '*', '/', '\n']
    (IsLeast {j | 2 ≤ j ∧ ClosesAt closed j} 7 ∧
      ∃ next : Stop closed, next.before = closed.take 9 ∧
        scan closed =
          ⟨commentLexemes .start [['/', '*', '/'], [], ['*', '*', '/']] ++ next.ahead.lexemes,
            next.ahead.diagnostics⟩) ∧
    (∀ place, 2 ≤ place → ¬ ClosesAt unclosed place) ∧
      scan unclosed =
        ⟨commentLexemes .start [['/', '*', '/'], []], [⟨.unterminatedBlockComment, .start⟩]⟩ := by
  intro closed unclosed
  have hfirst : IsLeast {j | 2 ≤ j ∧ ClosesAt closed j} 7 := by
    refine ⟨by decide, ?_⟩
    rintro j ⟨hafter, hcloses⟩
    have hearlier : ∀ k < 7, 2 ≤ k → ¬ ClosesAt closed k := by decide
    by_contra hlt
    exact hearlier j (Nat.lt_of_not_le hlt) hafter hcloses
  have hnone : ∀ place, 2 ≤ place → ¬ ClosesAt unclosed place := by
    intro place hplace hcloses
    have hall : ∀ k < 4, 2 ≤ k → ¬ ClosesAt unclosed k := by decide
    by_cases hinside : place < 4
    · exact hall place hinside hplace hcloses
    · rw [ClosesAt, List.drop_eq_nil_of_le (Nat.le_of_not_lt hinside)] at hcloses
      cases List.prefix_nil.1 hcloses
  have hlast : LineSplit ['*', '*', '/'] [['*', '*', '/']] := .last (by simp [isBreak])
  have hempty : LineSplit ([] ++ LineBreak.cr.chars ++ _) _ :=
    .cons .cr (by simp) (by simp) hlast
  have hlines : LineSplit (['/', '*', '/'] ++ LineBreak.crlf.chars ++ _) _ :=
    .cons .crlf (by simp [isBreak]) (by simp) hempty
  have hlines' : LineSplit (['/', '*', '/'] ++ LineBreak.lf.chars ++ []) _ :=
    .cons .lf (by simp [isBreak]) (by simp) (.last (by simp))
  obtain ⟨hbefore, pieces, hpieces, hscan⟩ :=
    (blockComment_extent_exact (Stop.first closed) rfl).1 7 hfirst
  obtain ⟨_, pieces', hpieces', hscan'⟩ :=
    (blockComment_extent_exact (Stop.first unclosed) rfl).2 hnone
  rw [← (hpieces _).1 hlines, Stop.position_first] at hscan
  rw [← (hpieces' _).1 hlines', Stop.position_first] at hscan'
  exact ⟨⟨hfirst, _, hbefore, hscan⟩, hnone, hscan'⟩

end QasmHighlight
