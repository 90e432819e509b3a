import QasmHighlight.Token.Basic
import QasmHighlight.Wire.Quintuple

/-!
# Encoding and decoding tokens

Encoding keeps the tokens that have a line and a length, puts them in order of
position (tokens at one position stay in the order given) and writes them
relative to each other.  Decoding adds the distances up again.  All numbers on
the wire are words of 32 bits, and a sum that is no word makes decoding fail.
-/

namespace QasmHighlight

open Text

def Text.Position.notAfter (p q : Position) : Bool :=
  p.line < q.line || (p.line == q.line && p.column ≤ q.column)

/-- Whether a token can be shown: it has a line and a length. -/
def Token.isShown (token : Token) : Bool :=
  1 ≤ token.position.line && 0 < token.length

/-- The tokens that are encoded, in the order in which they are. -/
def arranged (tokens : List Token) : List Token :=
  (tokens.filter Token.isShown).mergeSort fun a b => a.position.notAfter b.position

def DeltaWriter.pushToken (writer : DeltaWriter) (token : Token) : DeltaWriter :=
  writer.push (token.position.line - 1) token.position.column token.length token.tokenClass.index

def encode (tokens : List Token) : List Quintuple :=
  ((arranged tokens).foldl DeltaWriter.pushToken {}).data

inductive DecodeError where
  | overflow
  deriving DecidableEq

def DecodeError.message : DecodeError → String
  | .overflow => "attempt to add with overflow"

/-- The numbers of a word are below this bound. -/
def wordBound : Nat := 4294967296

/-- The sum of two words, if it is a word. -/
def addWords (a b : Nat) : Except DecodeError Nat :=
  if a + b < wordBound then .ok (a + b) else .error .overflow

/-- The tokens decoded so far, and the zero-based position of the last. -/
structure Decoded where
  tokens : Array Token := #[]
  line : Nat := 0
  start : Nat := 0

def Decoded.push (decoded : Decoded) (q : Quintuple) : Except DecodeError Decoded := do
  let line ← if q.deltaLine = 0 then pure decoded.line else addWords decoded.line q.deltaLine
  let start ← if q.deltaLine = 0 then addWords decoded.start q.deltaStart else pure q.deltaStart
  let number ← addWords line 1
  return ⟨decoded.tokens.push ⟨.ofIndex q.tokenType, "", ⟨number, start⟩, q.length⟩, line, start⟩

def decode (data : List Quintuple) : Except DecodeError (List Token) := do
  let decoded ← data.foldlM Decoded.push {}
  return decoded.tokens.toList

end QasmHighlight
