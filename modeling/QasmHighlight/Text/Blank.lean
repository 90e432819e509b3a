import QasmHighlight.Text.CodeRanges

/-!
# Blank characters

The characters with the Unicode property `White_Space`. LF and CR are among
them, and so are U+0085, U+2028 and U+2029, which separate lexemes without
ending a line.
-/

namespace QasmHighlight
namespace Text

/-- Code points with the property `White_Space`. -/
def blankRanges : CodeRanges :=
  [(0x9, 0xd), (0x20, 0x20), (0x85, 0x85), (0xa0, 0xa0), (0x1680, 0x1680), (0x2000, 0x200a),
   (0x2028, 0x2029), (0x202f, 0x202f), (0x205f, 0x205f), (0x3000, 0x3000)]

/-- A character that separates lexemes and belongs to none. -/
def isBlank (c : Char) : Bool :=
  blankRanges.contains c.toNat

def trimmed (text : List Char) : List Char :=
  ((text.dropWhile isBlank).reverse.dropWhile isBlank).reverse

end Text
end QasmHighlight
