/-!
# Line breaks

A line ends at LF, at CRLF, or at a CR that no LF follows.  No other
character ends a line.  Reading a break from the front of a text and cutting
a text into the contents of its lines are the two operations that the
comment scanner and the position look-up share.
-/

namespace QasmHighlight
namespace Text

/-- The three ways in which a line ends. -/
inductive LineBreak where
  | lf
  | cr
  | crlf
  deriving DecidableEq

def LineBreak.chars : LineBreak → List Char
  | .lf => ['\n']
  | .cr => ['\r']
  | .crlf => ['\r', '\n']

/-- A character that begins or ends a line break. -/
def isBreak (c : Char) : Bool :=
  c == '\n' || c == '\r'

/-- The line break at the front of a text, and what follows it.  A CR takes
the LF after it along. -/
def LineBreak.read? : List Char → Option (LineBreak × List Char)
  | '\r' :: '\n' :: rest => some (.crlf, rest)
  | '\r' :: rest => some (.cr, rest)
  | '\n' :: rest => some (.lf, rest)
  | _ => none

/-- The content of the first line of a text, without its line break. -/
def lineContent (text : List Char) : List Char :=
  text.takeWhile (!isBreak ·)

/-- What follows the content of the first line: its line break and all later
lines. -/
def afterContent (text : List Char) : List Char :=
  text.dropWhile (!isBreak ·)

theorem lineContent_append_afterContent (text : List Char) :
    lineContent text ++ afterContent text = text :=
  List.takeWhile_append_dropWhile

/-- Reading a break loses nothing. -/
theorem LineBreak.eq_of_read? {text rest : List Char} {b : LineBreak}
    (h : LineBreak.read? text = some (b, rest)) : text = b.chars ++ rest := by
  unfold LineBreak.read? at h
  split at h <;> cases h <;> rfl

theorem LineBreak.length_lt_of_read? {text rest : List Char} {b : LineBreak}
    (h : LineBreak.read? text = some (b, rest)) : rest.length < text.length := by
  rw [LineBreak.eq_of_read? h]
  cases b <;> simp only [LineBreak.chars, List.length_append, List.length_cons] <;> omega

theorem length_lt_of_read?_afterContent {text rest : List Char} {b : LineBreak}
    (h : LineBreak.read? (afterContent text) = some (b, rest)) : rest.length < text.length := by
  have hshort := LineBreak.length_lt_of_read? h
  have hwhole := congrArg List.length (lineContent_append_afterContent text)
  simp only [List.length_append] at hwhole
  omega

/-- Appends to `done` the contents of the lines of a text. -/
def linesInto (done : Array (List Char)) (text : List Char) : Array (List Char) :=
  match _h : LineBreak.read? (afterContent text) with
  | none => done.push (lineContent text)
  | some (_, rest) => linesInto (done.push (lineContent text)) rest
termination_by text.length
decreasing_by exact length_lt_of_read?_afterContent _h

/-- The contents of the lines of a text; there is one more line than there are
line breaks. -/
def lines (text : List Char) : List (List Char) :=
  (linesInto #[] text).toList

end Text
end QasmHighlight
