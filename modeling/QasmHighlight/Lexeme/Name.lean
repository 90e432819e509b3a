import QasmHighlight.Text.Alphabetic
import QasmHighlight.Text.Numeric

/-!
# Names

A name begins with an underscore or an alphabetic character and goes on with
underscores, alphabetic and numeric characters.
-/

namespace QasmHighlight
namespace Lexeme

open Text

def startsName (c : Char) : Bool :=
  c == '_' || isAlphabetic c

def continuesName (c : Char) : Bool :=
  c == '_' || isAlphabetic c || isNumeric c

theorem continuesName_of_startsName {c : Char} (h : startsName c = true) :
    continuesName c = true := by
  simp only [startsName, continuesName, Bool.or_eq_true] at h ⊢
  exact .inl h

end Lexeme
end QasmHighlight
