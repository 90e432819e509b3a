/-!
# Byte slices

A place in a text can be given by the number of UTF-8 bytes before it.  Between
two such places lies a slice of the text.
-/

namespace QasmHighlight
namespace Text

/-- A text without its first `count` bytes.  A character that `count` reaches
only in part stays. -/
def dropBytes (count : Nat) : List Char → List Char
  | [] => []
  | c :: rest => if c.utf8Size ≤ count then dropBytes (count - c.utf8Size) rest else c :: rest

/-- The characters of a text that lie wholly within its first `count` bytes,
put after `taken` in reverse. -/
def takeBytesOnto (taken : List Char) (count : Nat) : List Char → List Char
  | [] => taken.reverse
  | c :: rest =>
    if c.utf8Size ≤ count then takeBytesOnto (c :: taken) (count - c.utf8Size) rest
    else taken.reverse

/-- The characters of a text that lie wholly within its first `count` bytes. -/
def takeBytes (count : Nat) (text : List Char) : List Char :=
  takeBytesOnto [] count text

def slice (start stop : Nat) (text : List Char) : List Char :=
  takeBytes (stop - start) (dropBytes start text)

/-- Whether a place lies between two characters of a text, or at an end of it. -/
def isBoundary : Nat → List Char → Bool
  | 0, _ => true
  | _ + 1, [] => false
  | place, c :: rest => c.utf8Size ≤ place && isBoundary (place - c.utf8Size) rest

/-- The part of a text between two places; none if a place lies inside a
character. -/
def slice? (start stop : Nat) (text : List Char) : Option (List Char) :=
  if isBoundary start text && isBoundary stop text then some (slice start stop text) else none

end Text
end QasmHighlight
