/-!
# Decimal numbers

A decimal number has an optional sign, digits with at most one point among or
around them, and an optional exponent.  The words for infinity and for what is no
number count as numbers too.
-/

namespace QasmHighlight
namespace Text

def unsigned (text : List Char) : List Char :=
  match text with
  | '+' :: rest | '-' :: rest => rest
  | _ => text

/-- Whether a text is empty or an exponent. -/
def isExponent (text : List Char) : Bool :=
  match text with
  | [] => true
  | c :: rest =>
    let digits := unsigned rest
    (c == 'e' || c == 'E') && !digits.isEmpty && digits.all Char.isDigit

def numberWords : List String := ["inf", "infinity", "nan"]

def isDecimal (text : List Char) : Bool :=
  let size := unsigned text
  let whole := size.takeWhile Char.isDigit
  let (fraction, rest) :=
    match size.dropWhile Char.isDigit with
    | '.' :: rest => (rest.takeWhile Char.isDigit, rest.dropWhile Char.isDigit)
    | rest => ([], rest)
  numberWords.contains (String.ofList (size.map Char.toLower)) ||
    (!(whole ++ fraction).isEmpty && isExponent rest)

end Text
end QasmHighlight
