/-!
# Relative positions

On the wire a token is five numbers: how many lines it is below the token
before it, how many columns to the right of it if both are on one line and of
the margin otherwise, its length, its class and its modifiers.  The writer turns
absolute positions into relative ones.  It expects them in order; a position
before the last one counts as no distance, and is the last one from then on.
-/

namespace QasmHighlight

/-- A token on the wire. -/
structure Quintuple where
  deltaLine : Nat
  deltaStart : Nat
  length : Nat
  tokenType : Nat
  modifiers : Nat
  deriving DecidableEq

def Quintuple.toList (q : Quintuple) : List Nat :=
  [q.deltaLine, q.deltaStart, q.length, q.tokenType, q.modifiers]

/-- The numbers of a list of tokens, as they are sent. -/
def flatten (data : List Quintuple) : List Nat :=
  data.flatMap Quintuple.toList

/-- What was written so far, and the last position. -/
structure DeltaWriter where
  written : Array Quintuple := #[]
  line : Nat := 0
  start : Nat := 0

namespace DeltaWriter

/-- Writes a token at a zero-based line and column. -/
def push (writer : DeltaWriter) (line start length tokenType : Nat) : DeltaWriter :=
  let deltaLine := line - writer.line
  let deltaStart := if deltaLine = 0 then start - writer.start else start
  ⟨writer.written.push ⟨deltaLine, deltaStart, length, tokenType, 0⟩, line, start⟩

def size (writer : DeltaWriter) : Nat :=
  writer.written.size

def isEmpty (writer : DeltaWriter) : Bool :=
  writer.written.isEmpty

def data (writer : DeltaWriter) : List Quintuple :=
  writer.written.toList

end DeltaWriter
end QasmHighlight
