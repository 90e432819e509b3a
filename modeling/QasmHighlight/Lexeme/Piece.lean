import QasmHighlight.Diagnostic
import QasmHighlight.Lexeme.Basic
import QasmHighlight.Lexeme.Delimited
import QasmHighlight.Lexeme.Numeral
import QasmHighlight.Lexeme.Operator
import QasmHighlight.Text.Blank

/-!
# Pieces of source text

Source text falls into pieces: blank characters, characters that fit nowhere,
lexemes, and block comments, which are the only pieces that may run over
several lines.  Where the first piece of a text ends depends on the text
alone and not on its position.  A piece at a position gives lexemes and
diagnostics; a block comment gives one lexeme for each line on which it has
characters.
-/

namespace QasmHighlight

open Text
open Lexeme

inductive Piece where
  | space (c : Char)
  | stray (c : Char)
  | lexeme (kind : LexemeKind) (chars : List Char)
  | blockComment (chars : List Char) (closed : Bool)
  deriving DecidableEq

namespace Piece

def text : Piece → List Char
  | .space c => [c]
  | .stray c => [c]
  | .lexeme _ chars => chars
  | .blockComment chars _ => chars

/-- The string after an opening quote.  Without a closing quote it is the rest of
the line. -/
def ofString (rest : List Char) : Piece :=
  match closingQuote? 0 rest with
  | some count => .lexeme .string ('"' :: rest.take count)
  | none => .lexeme .unterminatedString ('"' :: lineContent rest)

/-- The block comment after its `/*`.  Without a closing `*/` it is all that
remains. -/
def ofComment (rest : List Char) : Piece :=
  match commentEnd? 0 rest with
  | some count => .blockComment ('/' :: '*' :: rest.take (count + 2)) true
  | none => .blockComment ('/' :: '*' :: rest) false

/-- The operator or punctuation mark that `c` begins, if there is one. -/
def ofSymbol (c : Char) (rest : List Char) : Piece :=
  match leadingOperator? (c :: rest) with
  | some chars => .lexeme .operator chars
  | none =>
    match Punctuation.ofChar? c with
    | some mark => .lexeme (.punctuation mark) [c]
    | none => .stray c

/-- The first piece of the text that has `c` before `rest`. -/
def first (c : Char) (rest : List Char) : Piece :=
  if isBlank c then .space c
  else if c = '/' ∧ rest.head? = some '/' then .lexeme .comment (c :: lineContent rest)
  else if c = '/' ∧ rest.head? = some '*' then ofComment rest.tail
  else if c = '"' then ofString rest
  else if Numeral.begins c rest then .lexeme .number (Numeral.read (c :: rest))
  else if c = '$' ∧ rest.head?.any Char.isDigit then
    .lexeme .hardwareQubit (c :: rest.takeWhile Char.isDigit)
  else if (c = '#' ∧ rest.head?.any startsName) ∨ startsName c then
    .lexeme .word (c :: rest.takeWhile continuesName)
  else ofSymbol c rest

/-- The position of line `number` of a block comment that begins at `p`, with
its first line at number zero. -/
def fragmentPosition (p : Position) (number : Nat) : Position :=
  if number = 0 then p else ⟨p.line + number, 0⟩

/-- The lexemes of a block comment at a position, one for each line that is not
empty. -/
def fragments (p : Position) (chars : List Char) : List Lexeme :=
  ((lines chars).zipIdx.filter (!·.1.isEmpty)).map fun line =>
    .ofChars .comment line.1 (fragmentPosition p line.2)

def lexemes (p : Position) : Piece → List Lexeme
  | .space _ => []
  | .stray _ => []
  | .lexeme kind chars => [.ofChars kind chars p]
  | .blockComment chars _ => fragments p chars

def diagnostics (p : Position) : Piece → List Diagnostic
  | .stray c => [⟨.unexpectedCharacter c, p⟩]
  | .lexeme .unterminatedString _ => [⟨.unterminatedString, p⟩]
  | .blockComment _ false => [⟨.unterminatedBlockComment, p⟩]
  | _ => []

/-! ### The first piece is a non-empty leading part of the text -/

theorem isPrefix_ofString (rest : List Char) : (ofString rest).text <+: '"' :: rest := by
  unfold ofString
  split
  · simp only [text, List.cons_prefix_cons, true_and]
    exact List.take_prefix _ _
  · simp only [text, lineContent, List.cons_prefix_cons, true_and]
    exact List.takeWhile_prefix _

theorem isPrefix_ofComment (rest : List Char) : (ofComment rest).text <+: '/' :: '*' :: rest := by
  unfold ofComment
  split
  · simp only [text, List.cons_prefix_cons, true_and]
    exact List.take_prefix _ _
  · exact List.prefix_rfl

theorem isPrefix_ofSymbol (c : Char) (rest : List Char) :
    (ofSymbol c rest).text <+: c :: rest := by
  unfold ofSymbol
  split
  · next chars hfound =>
    have hleads := List.find?_some hfound
    simpa [text] using hleads
  · split
    · exact ⟨rest, rfl⟩
    · exact ⟨rest, rfl⟩

theorem isPrefix_first (c : Char) (rest : List Char) : (first c rest).text <+: c :: rest := by
  unfold first
  repeat' split
  · exact ⟨rest, rfl⟩
  · simp only [text, lineContent, List.cons_prefix_cons, true_and]
    exact List.takeWhile_prefix _
  · next hopen =>
    obtain ⟨rfl, hstar⟩ := hopen
    obtain ⟨more, rfl⟩ := List.head?_eq_some_iff.1 hstar
    exact isPrefix_ofComment more
  · next hquote =>
    subst hquote
    exact isPrefix_ofString rest
  · exact Numeral.isPrefix_read _
  · simp only [text, List.cons_prefix_cons, true_and]
    exact List.takeWhile_prefix _
  · simp only [text, List.cons_prefix_cons, true_and]
    exact List.takeWhile_prefix _
  · exact isPrefix_ofSymbol c rest

theorem nil_notMem_operators : [] ∉ operators := by decide

theorem text_first_ne_nil (c : Char) (rest : List Char) : (first c rest).text ≠ [] := by
  unfold first
  repeat' split
  · exact List.cons_ne_nil _ _
  · exact List.cons_ne_nil _ _
  · unfold ofComment
    split <;> exact List.cons_ne_nil _ _
  · unfold ofString
    split <;> exact List.cons_ne_nil _ _
  · next hnumeral => exact Numeral.read_ne_nil hnumeral
  · exact List.cons_ne_nil _ _
  · exact List.cons_ne_nil _ _
  · unfold ofSymbol
    split
    · next chars hfound =>
      intro hnil
      have hmem := List.mem_of_find?_eq_some hfound
      simp only [text] at hnil
      exact nil_notMem_operators (hnil ▸ hmem)
    · split <;> exact List.cons_ne_nil _ _

/-- What remains of a text after its first piece is shorter than the text. -/
theorem length_drop_first_lt (c : Char) (rest : List Char) :
    ((c :: rest).drop (first c rest).text.length).length < (c :: rest).length := by
  have hpos := List.length_pos_iff.2 (text_first_ne_nil c rest)
  simp only [List.length_drop, List.length_cons]
  omega

end Piece
end QasmHighlight
