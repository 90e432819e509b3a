import QasmHighlight.Text.Unprintable

/-!
# Quoted characters

A message shows a character between single quotes.  The quote, the backslash
and four controls have short escapes; every other character without a
visible form is written by its code point, in lower-case hexadecimal between
braces.
-/

namespace QasmHighlight
namespace Text

/-- A character as it stands between the quotes. -/
def escaped (c : Char) : String :=
  match c with
  | '\x00' => "\\0"
  | '\t' => "\\t"
  | '\r' => "\\r"
  | '\n' => "\\n"
  | '\\' => "\\\\"
  | '\'' => "\\'"
  | _ =>
    if isUnprintable c then
      "\\u\x7b" ++ String.ofList (Nat.toDigits 16 c.toNat) ++ "\x7d"
    else
      c.toString

def quoted (c : Char) : String :=
  "'" ++ escaped c ++ "'"

end Text
end QasmHighlight
