import QasmHighlight.Proofs.Lexeme.Locality
import QasmHighlight.Proofs.Lexeme.Stop

/-!
# The extent of strings

A string is a quote, a body and a closing quote on one line.  In the body a
backslash takes the character after it along, so a quote closes the string only
if no backslash takes it.  The search for the closing quote finds the end of a
body.  So the scan reads the string with which the line begins, and where there
is none the search fails and the rest of the line is a string that is cut short.
-/

namespace QasmHighlight

open Text
open Lexeme

def IsStringLiteral (text : List Char) : Prop :=
  ∃ body, StringBody body ∧ text = '"' :: (body ++ ['"'])

namespace Piece

private theorem first_quote (rest : List Char) : first '"' rest = ofString rest := rfl

theorem ofString_of_isStringLiteral {rest text : List Char} (hliteral : IsStringLiteral text)
    (hline : text <+: '"' :: lineContent rest) : ofString rest = .lexeme .string text := by
  obtain ⟨body, hbody, rfl⟩ := hliteral
  obtain ⟨after, hafter⟩ := (List.cons_prefix_cons.1 hline).2
  have hrest : rest = body ++ '"' :: (after ++ afterContent rest) := by
    conv_lhs => rw [← lineContent_append_afterContent rest, ← hafter]
    simp
  have hfound := closingQuote?_append_quote hbody 0 (after ++ afterContent rest)
  rw [← hrest, Nat.zero_add] at hfound
  have htake : rest.take (body.length + 1) = body ++ ['"'] := by
    rw [hrest, List.take_length_add_append]
    rfl
  simp only [ofString, hfound, htake]

theorem ofString_of_forall_not_isStringLiteral {rest : List Char}
    (hnone : ∀ text, text <+: '"' :: lineContent rest → ¬ IsStringLiteral text) :
    ofString rest = .lexeme .unterminatedString ('"' :: lineContent rest) := by
  have hfound : closingQuote? 0 rest = none := by
    rw [← closingQuote?_lineContent, Option.eq_none_iff_forall_ne_some]
    intro count hcount
    obtain ⟨body, after, hbody, hline, _⟩ := exists_body_of_closingQuote? hcount
    refine hnone ('"' :: (body ++ ['"'])) ?_ ⟨body, hbody, rfl⟩
    rw [hline]
    exact ⟨after, by simp⟩
  simp only [ofString, hfound]

end Piece

/-- Where scanning comes to a quote, it reads the string that its line begins
with, if the line begins with one, and otherwise the rest of the line as a string
that is cut short, with one diagnostic.  It goes on right after what it read. -/
theorem string_extent_exact {source rest : List Char} (stop : Stop source)
    (hquote : stop.rest = '"' :: rest) :
    (∀ text, text <+: '"' :: lineContent rest → IsStringLiteral text →
      (stop.next hquote).before = stop.before ++ text ∧
      scan source =
        ⟨stop.found.lexemes ++ [.ofChars .string text stop.position] ++
            (stop.next hquote).ahead.lexemes,
          stop.found.diagnostics ++ (stop.next hquote).ahead.diagnostics⟩) ∧
    ((∀ text, text <+: '"' :: lineContent rest → ¬ IsStringLiteral text) →
      (stop.next hquote).before = stop.before ++ '"' :: lineContent rest ∧
      scan source =
        ⟨stop.found.lexemes ++
            [.ofChars .unterminatedString ('"' :: lineContent rest) stop.position] ++
            (stop.next hquote).ahead.lexemes,
          stop.found.diagnostics ++ [⟨.unterminatedString, stop.position⟩] ++
            (stop.next hquote).ahead.diagnostics⟩) := by
  constructor
  · intro text hline hliteral
    have hpiece := Piece.ofString_of_isStringLiteral hliteral hline
    have hscan := stop.scan_eq_next hquote
    rw [Piece.first_quote, hpiece] at hscan
    constructor
    · rw [stop.before_next, Piece.first_quote, hpiece]
      rfl
    · rw [hscan]
      simp only [Piece.lexemes, Piece.diagnostics, List.append_nil]
  · intro hnone
    have hpiece := Piece.ofString_of_forall_not_isStringLiteral hnone
    have hscan := stop.scan_eq_next hquote
    rw [Piece.first_quote, hpiece] at hscan
    constructor
    · rw [stop.before_next, Piece.first_quote, hpiece]
      rfl
    · exact hscan

/-- A string that ends in an escaped backslash, and right after it one whose quote
is escaped. -/
theorem string_extent_exact_escapes :
    let literal := "\"\\\\\"".toList
    let unclosed := "\"x\\\"".toList
    let source := literal ++ unclosed
    ∃ (start : Stop source) (hstart : start.rest = '"' :: source.tail)
      (hagain : (start.next hstart).rest = '"' :: unclosed.tail),
      (literal <+: '"' :: lineContent source.tail ∧ IsStringLiteral literal ∧
        (start.next hstart).before = literal ∧
        scan source =
          ⟨[.ofChars .string literal ⟨1, 0⟩] ++ (start.next hstart).ahead.lexemes,
            (start.next hstart).ahead.diagnostics⟩) ∧
      (∀ text, text <+: '"' :: lineContent unclosed.tail → ¬ IsStringLiteral text) ∧
      ((start.next hstart).next hagain).before = source := by
  intro literal unclosed source
  have hstart : (Stop.first source).rest = '"' :: source.tail := rfl
  have hliteral : IsStringLiteral literal := by
    refine ⟨['\\', '\\'], .escape ?_ ?_ .nil, rfl⟩ <;> decide
  have hline : literal <+: '"' :: lineContent source.tail := by decide
  obtain ⟨hbefore, hscan⟩ := (string_extent_exact (Stop.first source) hstart).1 _ hline hliteral
  have hagain : ((Stop.first source).next hstart).rest = '"' :: unclosed.tail := by
    rw [← Stop.drop_length_before, hbefore]
    rfl
  have hnone : ∀ text, text <+: '"' :: lineContent unclosed.tail → ¬ IsStringLiteral text := by
    intro text htext hfound
    have hstring := Piece.ofString_of_isStringLiteral hfound htext
    have hcut : Piece.ofString unclosed.tail = .lexeme .unterminatedString unclosed := by decide
    rw [hcut] at hstring
    cases hstring
  obtain ⟨hend, _⟩ := (string_extent_exact _ hagain).2 hnone
  refine ⟨Stop.first source, hstart, hagain, ⟨hline, hliteral, hbefore, hscan⟩, hnone, ?_⟩
  rw [hend, hbefore]
  rfl

end QasmHighlight
