import QasmHighlight.Document.Point

/-!
# Changes

A change gives a document a new text, or puts a text in place of what stands
between two points.  An end before the start makes the change an insertion at
the start.  Changes take effect one after another, each on the text that the
one before it leaves.  When the last one gives a new text, the others have no
effect and are not carried out.
-/

namespace QasmHighlight

structure Range where
  start : Point
  stop : Point
  deriving DecidableEq

/-- A change of a document: of a stretch of it, or of all of it. -/
structure Change where
  range : Option Range
  text : String
  deriving DecidableEq

/-- The characters that a change took out, from `start` up to `stop`, and the
UTF-8 length of what it put in their place. -/
structure Splice where
  start : Nat
  stop : Nat
  bytes : Nat
  deriving DecidableEq

/-- The numbers of characters before the two ends of a range. -/
def Range.bounds (range : Range) (text : List Char) : Nat × Nat :=
  let start := range.start.offset text
  (start, max start (range.stop.offset text))

def Change.apply (change : Change) (text : List Char) : List Char :=
  match change.range with
  | none => change.text.toList
  | some range =>
    let (start, stop) := range.bounds text
    text.take start ++ change.text.toList ++ text.drop stop

/-- The splice that a change makes; none if it changes all of the text. -/
def Change.splice? (change : Change) (text : List Char) : Option Splice :=
  change.range.map fun range =>
    let (start, stop) := range.bounds text
    ⟨start, stop, change.text.utf8ByteSize⟩

/-- A text after some changes and the splices they made, the last one first. -/
structure Edited where
  text : List Char
  splices : List Splice

def Edited.step (edited : Edited) (change : Change) : Edited :=
  ⟨change.apply edited.text, (change.splice? edited.text).toList ++ edited.splices⟩

/-- The text that changes leave, and the splices they make in order. -/
def edit (text : String) (changes : List Change) : String × List Splice :=
  match changes.getLast? with
  | some ⟨none, replacement⟩ => (replacement, [])
  | _ =>
    let edited := changes.foldl Edited.step ⟨text.toList, []⟩
    (String.ofList edited.text, edited.splices.reverse)

def applyChanges (text : String) (changes : List Change) : String :=
  (edit text changes).1

end QasmHighlight
