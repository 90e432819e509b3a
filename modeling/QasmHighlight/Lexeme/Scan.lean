import QasmHighlight.Lexeme.Piece

/-!
# Scanning

Scanning cuts a text into pieces from left to right and gives each piece its
position.  The plain scan collects the lexemes and diagnostics of all pieces.
The bounded scan does the same work in one pass and gives up as soon as it
has found more lexemes than it may; whenever it does not give up, the two
agree.
-/

namespace QasmHighlight

open Text

/-- The pieces of a text with their positions, the first of them at `p`. -/
def Piece.placed (p : Position) (source : List Char) : List (Position × Piece) :=
  match source with
  | [] => []
  | c :: rest =>
    let piece := Piece.first c rest
    let remaining := (c :: rest).drop piece.text.length
    (p, piece) :: Piece.placed (p.after piece.text remaining.head?) remaining
termination_by source.length
decreasing_by exact Piece.length_drop_first_lt c rest

/-- The lexemes of a text and what is wrong with it, both in source order. -/
structure Scan where
  lexemes : List Lexeme
  diagnostics : List Diagnostic
  deriving DecidableEq

def Scan.ofPlaced (placed : List (Position × Piece)) : Scan :=
  ⟨placed.flatMap fun x => x.2.lexemes x.1, placed.flatMap fun x => x.2.diagnostics x.1⟩

def scan (source : List Char) : Scan :=
  .ofPlaced (Piece.placed .start source)

/-- Scans the text that remains at `p` after `lexemes` and `diagnostics` were
found; none as soon as there are more than `limit` lexemes. -/
def scanInto (limit : Nat) (p : Position) (lexemes : Array Lexeme)
    (diagnostics : Array Diagnostic) (source : List Char) : Option Scan :=
  match source with
  | [] => some ⟨lexemes.toList, diagnostics.toList⟩
  | c :: rest =>
    let piece := Piece.first c rest
    let remaining := (c :: rest).drop piece.text.length
    let found := lexemes ++ piece.lexemes p
    if limit < found.size then none
    else
      scanInto limit (p.after piece.text remaining.head?) found
        (diagnostics ++ piece.diagnostics p) remaining
termination_by source.length
decreasing_by exact Piece.length_drop_first_lt c rest

/-- The scan of a whole text, unless it has more than `limit` lexemes. -/
def scanWithin (limit : Nat) (source : List Char) : Option Scan :=
  scanInto limit .start #[] #[] source

/-! ### The bounded scan against the plain one -/

theorem scanInto_eq (limit : Nat) (p : Position) (lexemes : Array Lexeme)
    (diagnostics : Array Diagnostic) (source : List Char) (hroom : lexemes.size ≤ limit) :
    scanInto limit p lexemes diagnostics source =
      (let found := Scan.ofPlaced (Piece.placed p source)
       if limit < lexemes.size + found.lexemes.length then none
       else some ⟨lexemes.toList ++ found.lexemes, diagnostics.toList ++ found.diagnostics⟩) := by
  fun_induction scanInto limit p lexemes diagnostics source with
  | case1 p lexemes diagnostics =>
    have hfits : ¬ limit < lexemes.size := by omega
    simp [Piece.placed, Scan.ofPlaced, hfits]
  | case2 p lexemes diagnostics c rest piece found hover =>
    rw [Piece.placed]
    have hmore : limit < lexemes.size + (piece.lexemes p).length := by
      simpa [found, ← Array.length_toList] using hover
    simp only [Scan.ofPlaced, List.flatMap_cons, List.length_append]
    rw [if_pos]
    show limit < lexemes.size + ((piece.lexemes p).length + _)
    omega
  | case3 p lexemes diagnostics c rest piece remaining found hfits ih =>
    rw [ih (by omega), Piece.placed]
    have hsize : found.size = lexemes.size + (piece.lexemes p).length := by
      simp [found, ← Array.length_toList]
    simp only [Scan.ofPlaced, List.flatMap_cons, List.length_append, hsize,
      Array.toList_appendList, List.append_assoc, Nat.add_assoc, found]
    rfl

/-- The bounded scan gives up exactly when the plain scan finds more lexemes than
the limit, and agrees with it otherwise. -/
theorem scanWithin_eq (limit : Nat) (source : List Char) :
    scanWithin limit source =
      if limit < (scan source).lexemes.length then none else some (scan source) := by
  unfold scanWithin
  rw [scanInto_eq limit .start #[] #[] source (Nat.zero_le _)]
  simp only [Array.size_empty, Nat.zero_add, List.nil_append, scan]
  rfl

end QasmHighlight
