/-!
# Counts written as text

A count is written with decimal digits, after an optional plus sign, and fits
into a machine word of 64 bits.
-/

namespace QasmHighlight
namespace Text

def maxCount : Nat := 18446744073709551615

def count? (text : String) : Option Nat :=
  let digits :=
    match text.toList with
    | '+' :: rest => rest
    | chars => chars
  if digits.isEmpty || !digits.all Char.isDigit then none
  else
    let value := digits.foldl (fun n c => n * 10 + (c.toNat - '0'.toNat)) 0
    if value ≤ maxCount then some value else none

end Text
end QasmHighlight
