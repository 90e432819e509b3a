import QasmHighlight.Proofs.Lexeme.PlainPiece

/-!
# Where scanning stops on its way

Scanning comes to a place between two pieces with some pieces done and the rest
of the source unread.  At each such stop the next piece depends on the unread
text only, by one of a few rules, and reading it leads to the next stop.  So what
the scan makes of a source can be told stop by stop: what was found so far, what
the next piece adds, and what is found from the next stop on.
-/

namespace QasmHighlight

open Text

/-! ## The rules for the next piece -/

namespace Piece

open Lexeme

/-- What the next piece is and what the text has to be like for it.  Operators and
marks are read only where neither a comment nor a numeral begins. -/
inductive Reads (c : Char) (rest : List Char) : Piece → Prop
  | space : isBlank c = true → Reads c rest (.space c)
  | lineComment : c = '/' → rest.head? = some '/' →
      Reads c rest (.lexeme .comment (c :: lineContent rest))
  | closedComment {count : Nat} : c = '/' → rest.head? = some '*' →
      commentEnd? 0 rest.tail = some count →
      Reads c rest (.blockComment ('/' :: '*' :: rest.tail.take (count + 2)) true)
  | unclosedComment : c = '/' → rest.head? = some '*' → commentEnd? 0 rest.tail = none →
      Reads c rest (.blockComment ('/' :: '*' :: rest.tail) false)
  | string {count : Nat} : c = '"' → closingQuote? 0 rest = some count →
      Reads c rest (.lexeme .string ('"' :: rest.take count))
  | unterminatedString : c = '"' → closingQuote? 0 rest = none →
      Reads c rest (.lexeme .unterminatedString ('"' :: lineContent rest))
  | number : Numeral.begins c rest = true →
      Reads c rest (.lexeme .number (Numeral.read (c :: rest)))
  | hardwareQubit : c = '$' → rest.head?.any Char.isDigit = true →
      Reads c rest (.lexeme .hardwareQubit (c :: rest.takeWhile Char.isDigit))
  | word : (c = '#' ∧ rest.head?.any startsName = true) ∨ startsName c = true →
      Reads c rest (.lexeme .word (c :: rest.takeWhile continuesName))
  | operator {op : List Char} : ¬ (c = '/' ∧ rest.head? = some '/') →
      ¬ (c = '/' ∧ rest.head? = some '*') → leadingOperator? (c :: rest) = some op →
      Reads c rest (.lexeme .operator op)
  | punctuation {mark : Punctuation} : Numeral.begins c rest = false →
      leadingOperator? (c :: rest) = none → Punctuation.ofChar? c = some mark →
      Reads c rest (.lexeme (.punctuation mark) [c])
  | stray : isBlank c = false → leadingOperator? (c :: rest) = none →
      Punctuation.ofChar? c = none → Reads c rest (.stray c)

theorem reads_first (c : Char) (rest : List Char) : Reads c rest (first c rest) := by
  unfold first
  split_ifs with hblank hline hblock hquote hnumeral hqubit hword
  · exact .space hblank
  · exact .lineComment hline.1 hline.2
  · unfold ofComment
    split
    · next hfound => exact .closedComment hblock.1 hblock.2 hfound
    · next hnone => exact .unclosedComment hblock.1 hblock.2 hnone
  · unfold ofString
    split
    · next hfound => exact .string hquote hfound
    · next hnone => exact .unterminatedString hquote hnone
  · exact .number hnumeral
  · exact .hardwareQubit hqubit.1 hqubit.2
  · exact .word hword
  · unfold ofSymbol
    split
    · next hfound => exact .operator hline hblock hfound
    · next hnone =>
      split
      · next hmark => exact .punctuation (eq_false_of_ne_true hnumeral) hnone hmark
      · next hmark => exact .stray (eq_false_of_ne_true hblank) hnone hmark

theorem reads_of_first_eq {c : Char} {rest : List Char} {piece : Piece}
    (hfirst : first c rest = piece) : Reads c rest piece :=
  hfirst ▸ reads_first c rest

end Piece

/-! ## Stops -/

/-- A place of a source that scanning comes to, with the pieces before it. -/
structure Stop (source : List Char) where
  done : List (Position × Piece)
  rest : List Char
  texts_done_append_rest : Piece.texts (done.map Prod.snd) ++ rest = source
  placed_eq : Piece.placed .start source =
    done ++ Piece.placed
      (positionAt source (Piece.texts (done.map Prod.snd)).length) rest

namespace Stop

variable {source : List Char}

def before (stop : Stop source) : List Char :=
  Piece.texts (stop.done.map Prod.snd)

def position (stop : Stop source) : Position :=
  positionAt source stop.before.length

/-- What was found before the stop. -/
def found (stop : Stop source) : Scan :=
  .ofPlaced stop.done

/-- What is found from the stop on. -/
def ahead (stop : Stop source) : Scan :=
  .ofPlaced (Piece.placed stop.position stop.rest)

theorem before_append_rest (stop : Stop source) : stop.before ++ stop.rest = source :=
  stop.texts_done_append_rest

theorem drop_length_before (stop : Stop source) : source.drop stop.before.length = stop.rest := by
  have hdrop : (stop.before ++ stop.rest).drop stop.before.length = _ := List.drop_left
  rwa [stop.before_append_rest] at hdrop

theorem take_length_before_add (stop : Stop source) (count : Nat) :
    source.take (stop.before.length + count) = stop.before ++ stop.rest.take count := by
  have htake : (stop.before ++ stop.rest).take (stop.before.length + count) = _ :=
    List.take_length_add_append count
  rwa [stop.before_append_rest] at htake

theorem position_eq_after (stop : Stop source) :
    stop.position = Position.start.after stop.before stop.rest.head? := by
  rw [Position.after_eq_positionAt, stop.before_append_rest, position]

/-- The stop before the first character. -/
def first (source : List Char) : Stop source where
  done := []
  rest := source
  texts_done_append_rest := rfl
  placed_eq := by
    have hstart := Position.after_eq_positionAt [] source
    rw [Position.after_nil] at hstart
    rw [hstart]
    rfl

theorem position_first (source : List Char) : (first source).position = .start := by
  rw [position_eq_after]
  rfl

variable {c : Char} {rest : List Char}

theorem before_append_first (stop : Stop source) (hrest : stop.rest = c :: rest) :
    stop.before ++ (Piece.first c rest).text ++
      (c :: rest).drop (Piece.first c rest).text.length = source := by
  rw [List.append_assoc, Piece.text_first_append_drop, ← hrest, stop.before_append_rest]

theorem placed_rest (stop : Stop source) (hrest : stop.rest = c :: rest) :
    Piece.placed stop.position stop.rest =
      (stop.position, Piece.first c rest) ::
        Piece.placed (positionAt source (stop.before ++ (Piece.first c rest).text).length)
          ((c :: rest).drop (Piece.first c rest).text.length) := by
  have hpiece := Piece.text_first_append_drop c rest
  have hnext := Position.after_eq_positionAt (stop.before ++ (Piece.first c rest).text)
    ((c :: rest).drop (Piece.first c rest).text.length)
  rw [stop.before_append_first hrest, Position.after_append, ← List.head?_append, hpiece,
    ← hrest, ← stop.position_eq_after, hrest] at hnext
  rw [← hnext, hrest]
  exact Piece.placed_cons stop.position rfl hpiece.symm

/-- The stop after the piece that is read next. -/
def next (stop : Stop source) (hrest : stop.rest = c :: rest) : Stop source where
  done := stop.done ++ [(stop.position, Piece.first c rest)]
  rest := (c :: rest).drop (Piece.first c rest).text.length
  texts_done_append_rest := by
    have hwhole := stop.before_append_first hrest
    simpa [before] using hwhole
  placed_eq := by
    have htexts : Piece.texts ((stop.done ++ [(stop.position, Piece.first c rest)]).map Prod.snd) =
        stop.before ++ (Piece.first c rest).text := by
      simp [before]
    have hplaced : Piece.placed .start source =
        stop.done ++ Piece.placed stop.position stop.rest := stop.placed_eq
    rw [htexts, hplaced, stop.placed_rest hrest, List.append_assoc]
    rfl

theorem before_next (stop : Stop source) (hrest : stop.rest = c :: rest) :
    (stop.next hrest).before = stop.before ++ (Piece.first c rest).text := by
  simp [before, next]

theorem rest_next (stop : Stop source) (hrest : stop.rest = c :: rest) :
    (stop.next hrest).rest = (c :: rest).drop (Piece.first c rest).text.length := rfl

theorem scan_eq (stop : Stop source) :
    scan source = ⟨stop.found.lexemes ++ stop.ahead.lexemes,
      stop.found.diagnostics ++ stop.ahead.diagnostics⟩ := by
  rw [scan, stop.placed_eq]
  simp only [Scan.ofPlaced, List.flatMap_append]
  rfl

/-- What a source gives: what was found before a stop, what the piece there adds,
and what is found from the next stop on. -/
theorem scan_eq_next (stop : Stop source) (hrest : stop.rest = c :: rest) :
    scan source =
      ⟨stop.found.lexemes ++ (Piece.first c rest).lexemes stop.position ++
          (stop.next hrest).ahead.lexemes,
        stop.found.diagnostics ++ (Piece.first c rest).diagnostics stop.position ++
          (stop.next hrest).ahead.diagnostics⟩ := by
  rw [(stop.next hrest).scan_eq]
  simp only [found, next, Scan.ofPlaced, List.flatMap_append, List.flatMap_singleton]

theorem exists_of_mem_ahead (stop : Stop source) {x : Position × Piece}
    (hx : x ∈ Piece.placed stop.position stop.rest) :
    ∃ (there : Stop source) (c : Char) (rest : List Char),
      there.rest = c :: rest ∧ x = (there.position, Piece.first c rest) := by
  induction hlength : stop.rest.length using Nat.strong_induction_on generalizing stop with
  | _ length ih =>
      cases hrest : stop.rest with
      | nil =>
          rw [hrest, Piece.placed] at hx
          cases hx
      | cons c rest =>
          have hahead : Piece.placed stop.position stop.rest =
              (stop.position, Piece.first c rest) ::
                Piece.placed (stop.next hrest).position (stop.next hrest).rest := by
            rw [stop.placed_rest hrest, ← stop.before_next hrest]
            rfl
          rw [hahead] at hx
          rcases List.mem_cons.1 hx with rfl | hlater
          · exact ⟨stop, c, rest, hrest, rfl⟩
          · have hshorter := Piece.length_drop_first_lt c rest
            rw [← hrest, hlength, hrest] at hshorter
            exact ih _ hshorter (stop.next hrest) hlater rfl

/-- Every lexeme that is no comment is the piece at some stop. -/
theorem exists_of_mem_lexemes {lexeme : Lexeme} (hlexeme : lexeme ∈ (scan source).lexemes)
    (hkind : lexeme.kind ≠ .comment) :
    ∃ (stop : Stop source) (c : Char) (rest chars : List Char),
      stop.rest = c :: rest ∧ Piece.first c rest = .lexeme lexeme.kind chars ∧
        lexeme = .ofChars lexeme.kind chars stop.position := by
  obtain ⟨x, hx, hpiece⟩ := List.mem_flatMap.1 hlexeme
  have hstart := (first source).placed_eq
  rw [hstart] at hx
  obtain ⟨stop, c, rest, hrest, rfl⟩ := (first source).exists_of_mem_ahead hx
  refine ⟨stop, c, rest, ?_⟩
  dsimp only at hpiece
  cases hfirst : Piece.first c rest with
  | space d =>
      rw [hfirst] at hpiece
      cases hpiece
  | stray d =>
      rw [hfirst] at hpiece
      cases hpiece
  | lexeme kind chars =>
      rw [hfirst] at hpiece
      obtain rfl := List.mem_singleton.1 hpiece
      exact ⟨chars, hrest, rfl, rfl⟩
  | blockComment chars closed =>
      rw [hfirst] at hpiece
      obtain ⟨line, _, rfl⟩ := List.mem_map.1 hpiece
      exact absurd rfl hkind

end Stop
end QasmHighlight
