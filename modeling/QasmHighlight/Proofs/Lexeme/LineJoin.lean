import QasmHighlight.Proofs.Lexeme.Locality
import QasmHighlight.Proofs.Lexeme.PlainPiece

/-!
# Texts joined at a line break

Scanning two texts with an LF between them is scanning each of them on its own:
the lexemes of the first stay as they are, and those of the second move down by
the number of lines above them.  To every piece of the first text the LF is like
the end of the text; only a block comment that is not closed runs over it.
-/

namespace QasmHighlight

open Text

namespace Text

/-- The number of line breaks in a text. -/
def breakCount (text : List Char) : Nat :=
  Nat.count (fun i => breakEndsAt text i = true) (text.length + 1)

def Position.down (count : Nat) (p : Position) : Position :=
  ⟨p.line + count, p.column⟩

theorem Position.step_down (count : Nat) (p : Position) (c : Char) (next : Option Char) :
    (p.down count).step c next = (p.step c next).down count := by
  unfold Position.step Position.down
  split
  · simp only [Position.mk.injEq, and_true]
    omega
  · rfl

theorem Position.after_down (count : Nat) (p : Position) (text : List Char)
    (next : Option Char) : (p.down count).after text next = (p.after text next).down count := by
  induction text generalizing p with
  | nil => rfl
  | cons c rest ih => rw [Position.after_cons, Position.step_down, ih, Position.after_cons]

private theorem Position.after_append_lf (p : Position) (text : List Char) (next : Option Char) :
    p.after (text ++ ['\n']) next = ⟨(p.after text (some '\n')).line + 1, 0⟩ := by
  rw [Position.after_append]
  simp [Position.step]

theorem Position.after_append_lf_eq_down (text : List Char) :
    (⟨(Position.start.after text (some '\n')).line + 1, 0⟩ : Position) =
      Position.start.down (breakCount (text ++ ['\n'])) := by
  have hreached := Position.after_eq_positionAt (text ++ ['\n']) []
  rw [List.append_nil, Position.after_append_lf] at hreached
  have hline := congrArg Position.line hreached
  simp only [positionAt] at hline
  simp only [Position.down, Position.start, breakCount, Position.mk.injEq, and_true]
  exact hline

end Text

def Lexeme.down (count : Nat) (lexeme : Lexeme) : Lexeme :=
  { lexeme with position := lexeme.position.down count }

def Diagnostic.down (count : Nat) (diagnostic : Diagnostic) : Diagnostic :=
  { diagnostic with position := diagnostic.position.down count }

namespace Piece

open Lexeme

/-! ## Moving a text down -/

private theorem fragmentPosition_down (count : Nat) (p : Position) (number : Nat) :
    fragmentPosition (p.down count) number = (fragmentPosition p number).down count := by
  unfold fragmentPosition
  split
  · rfl
  · simp only [Position.down, Position.mk.injEq, and_true]
    omega

theorem lexemes_down (count : Nat) (p : Position) (piece : Piece) :
    piece.lexemes (p.down count) = (piece.lexemes p).map (Lexeme.down count) := by
  cases piece with
  | space c => rfl
  | stray c => rfl
  | lexeme kind chars => rfl
  | blockComment chars closed =>
      simp only [lexemes, fragments, List.map_map, fragmentPosition_down]
      rfl

theorem diagnostics_down (count : Nat) (p : Position) (piece : Piece) :
    piece.diagnostics (p.down count) = (piece.diagnostics p).map (Diagnostic.down count) := by
  cases piece with
  | space c => rfl
  | stray c => rfl
  | lexeme kind chars => cases kind <;> rfl
  | blockComment chars closed => cases closed <;> rfl

theorem placed_down (count : Nat) (p : Position) (source : List Char) :
    placed (p.down count) source = (placed p source).map fun x => (x.1.down count, x.2) := by
  fun_induction placed p source with
  | case1 p => rw [placed]; rfl
  | case2 p c rest piece remaining ih =>
      rw [placed, List.map_cons, ← ih, Position.after_down]

theorem ofPlaced_down (count : Nat) (p : Position) (source : List Char) :
    Scan.ofPlaced (placed (p.down count) source) =
      ⟨(Scan.ofPlaced (placed p source)).lexemes.map (Lexeme.down count),
        (Scan.ofPlaced (placed p source)).diagnostics.map (Diagnostic.down count)⟩ := by
  simp only [Scan.ofPlaced, placed_down, List.flatMap_map, List.map_flatMap, lexemes_down,
    diagnostics_down]

/-! ## The first piece before an LF -/

private theorem lineContent_append_lf (text following : List Char) :
    lineContent (text ++ '\n' :: following) = lineContent text := by
  induction text with
  | nil => rfl
  | cons c rest ih =>
      by_cases hc : isBreak c = true
      · rw [List.cons_append, lineContent_cons_of_isBreak hc, lineContent_cons_of_isBreak hc]
      · have hplain : isBreak c = false := eq_false_of_ne_true hc
        rw [List.cons_append, lineContent_cons_of_not_isBreak hplain,
          lineContent_cons_of_not_isBreak hplain, ih]

theorem first_append_lf {c : Char} {rest : List Char}
    (hclosed : ∀ chars, first c rest ≠ .blockComment chars false) (following : List Char) :
    first c (rest ++ '\n' :: following) = first c rest := by
  by_cases hblock : c = '/' ∧ rest.head? = some '*'
  · obtain ⟨rfl, hstar⟩ := hblock
    obtain ⟨more, rfl⟩ := List.head?_eq_some_iff.1 hstar
    rw [first_slash_star] at hclosed
    rw [List.cons_append, first_slash_star, first_slash_star]
    cases hend : commentEnd? 0 more with
    | some count => exact ofComment_append hend _
    | none =>
        exfalso
        apply hclosed ('/' :: '*' :: more)
        simp only [ofComment, hend]
  · exact (first_eq_of_lineContent_eq (lineContent_append_lf rest following).symm hblock).symm

theorem placed_lf_cons (p : Position) (source : List Char) :
    placed p ('\n' :: source) = (p, .space '\n') :: placed ⟨p.line + 1, 0⟩ source := by
  rw [placed_cons_of_isBlank p (by decide)]
  simp [Position.step]

/-- Placing the pieces of two texts with an LF between them. -/
theorem placed_append_lf (p : Position) {source : List Char}
    (hclosed : ∀ x ∈ placed p source, ∀ chars, x.2 ≠ .blockComment chars false)
    (following : List Char) :
    placed p (source ++ '\n' :: following) =
      placed p source ++ (p.after source (some '\n'), .space '\n') ::
        placed ⟨(p.after source (some '\n')).line + 1, 0⟩ following := by
  fun_induction placed p source with
  | case1 p => exact placed_lf_cons p following
  | case2 p c rest piece remaining ih =>
      have hfirst : first c (rest ++ '\n' :: following) = piece :=
        first_append_lf (hclosed _ List.mem_cons_self) following
      have hdrop : (c :: (rest ++ '\n' :: following)).drop piece.text.length =
          remaining ++ '\n' :: following :=
        List.drop_append_of_le_length (isPrefix_first c rest).length_le
      have hsource : c :: rest = piece.text ++ remaining := (text_first_append_drop c rest).symm
      rw [List.cons_append, placed]
      simp only [hfirst, hdrop]
      rw [hsource, Position.after_append]
      cases hremaining : remaining with
      | nil =>
          rw [placed]
          simp [placed_lf_cons]
      | cons d more =>
          have hrest := ih fun x hx => hclosed x (List.mem_cons_of_mem _ hx)
          rw [hremaining] at hrest
          simp only [List.cons_append, List.head?_cons, Option.some_or] at hrest ⊢
          rw [hrest]

end Piece

theorem not_unclosed_of_mem_placed
    {p : Position} {source : List Char}
    (hclosed : ∀ d ∈ (Scan.ofPlaced (Piece.placed p source)).diagnostics,
      d.problem ≠ .unterminatedBlockComment)
    {x : Position × Piece} (hx : x ∈ Piece.placed p source) (chars : List Char) :
    x.2 ≠ .blockComment chars false := by
  intro hpiece
  refine hclosed ⟨.unterminatedBlockComment, x.1⟩ ?_ rfl
  rw [Scan.ofPlaced, List.mem_flatMap]
  refine ⟨x, hx, ?_⟩
  rw [hpiece]
  exact List.mem_singleton.2 rfl

/-- Scanning two texts with an LF between them gives what scanning the first
gives, and then what scanning the second gives, moved down by the line breaks
that stand above it. -/
theorem scan_append_lf
    {above : List Char}
    (hclosed : ∀ d ∈ (scan above).diagnostics, d.problem ≠ .unterminatedBlockComment)
    (below : List Char) :
    scan (above ++ '\n' :: below) =
      ⟨(scan above).lexemes ++
          (scan below).lexemes.map (Lexeme.down (breakCount (above ++ ['\n']))),
        (scan above).diagnostics ++
          (scan below).diagnostics.map (Diagnostic.down (breakCount (above ++ ['\n'])))⟩ := by
  have hplaced := Piece.placed_append_lf .start
    (fun x hx chars => not_unclosed_of_mem_placed hclosed hx chars) below
  have hbelow := Piece.ofPlaced_down (breakCount (above ++ ['\n'])) .start below
  rw [← Position.after_append_lf_eq_down] at hbelow
  have hlexemes := congrArg Scan.lexemes hbelow
  have hdiagnostics := congrArg Scan.diagnostics hbelow
  simp only [Scan.ofPlaced] at hlexemes hdiagnostics
  simp only [scan, Scan.ofPlaced, hplaced, List.flatMap_append, List.flatMap_cons, hlexemes,
    hdiagnostics]
  rfl

/-- A string cut short after a backslash, and a CR that becomes one break with
the LF. -/
theorem scan_append_lf_after_cr :
    (∀ d ∈ (scan "1.\r\"\\\r".toList).diagnostics, d.problem ≠ .unterminatedBlockComment) ∧
    scan ("1.\r\"\\\r".toList ++ '\n' :: "?$0".toList) =
      ⟨(scan "1.\r\"\\\r".toList).lexemes ++
          (scan "?$0".toList).lexemes.map
            (Lexeme.down (breakCount ("1.\r\"\\\r".toList ++ ['\n']))),
        (scan "1.\r\"\\\r".toList).diagnostics ++
          (scan "?$0".toList).diagnostics.map
            (Diagnostic.down (breakCount ("1.\r\"\\\r".toList ++ ['\n'])))⟩ := by
  have hdiagnostics : (scan "1.\r\"\\\r".toList).diagnostics =
      [⟨.unterminatedString, ⟨2, 0⟩⟩] := by
    decide +kernel
  have hclosed : ∀ d ∈ (scan "1.\r\"\\\r".toList).diagnostics,
      d.problem ≠ .unterminatedBlockComment := by
    rw [hdiagnostics]
    simp
  exact ⟨hclosed, scan_append_lf hclosed _⟩

end QasmHighlight
