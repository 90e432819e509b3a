import QasmHighlight.Log.Threshold
import QasmHighlight.Pattern.Support
import QasmHighlight.Text.Alphabetic
import QasmHighlight.Text.Blank
import QasmHighlight.Text.Decimal
import QasmHighlight.Text.Numeric
import QasmHighlight.Text.Slice
import QasmHighlight.Text.Width

/-!
# Log directives

A directive sets how much a log shows.  Its full form is
`target[span{field=value}]=level`, and each part may be missing: the target is
the beginning of the path of a part of the server, the span is a named stretch
of work, the field is one that an event carries, its value is a number or a
pattern, and without a level everything is shown.  A level alone is about all
events, and any other single word is a target.

The parts are recognised in the text without the blanks around it, but cut out
of the text with those blanks, at the same distance from its start.  Blanks
before a directive therefore shift its parts, and may shift one into the middle
of a character, where the text cannot be cut.
-/

namespace QasmHighlight
namespace Log

open Text

/-- A condition on a field: that it is there, or that it has a value. -/
structure FieldCondition where
  name : String
  value : Option String

/-- How much is shown, and of what. -/
structure Directive where
  target : Option String := none
  span : Option String := none
  field : Option FieldCondition := none
  threshold : Threshold := some .trace

inductive DirectiveFault where
  | malformed
  | unknownLevel
  /-- The value of a field is neither a number nor a pattern. -/
  | badValue (fault : PatternFault)
  /-- A part begins or ends inside a character.  Nothing more can be read. -/
  | insideCharacter
  deriving DecidableEq

def DirectiveFault.message : DirectiveFault → String
  | malformed => "invalid filter directive"
  | unknownLevel =>
    "error parsing level filter: expected one of \"off\", \"error\", \"warn\", \"info\", " ++
      "\"debug\", \"trace\", or a number 0-5"
  | badValue fault => "invalid field filter: " ++ fault.message
  | insideCharacter => "not a character boundary"

/-- The condition that a text denotes: a name and, after an equals sign, a value.
A second equals sign ends the value. -/
def FieldCondition.read (text : List Char) : Except DirectiveFault FieldCondition :=
  let name := String.ofList (text.takeWhile (· ≠ '='))
  match text.dropWhile (· ≠ '=') with
  | [] => .ok ⟨name, none⟩
  | _ :: rest =>
    let value := rest.takeWhile (· ≠ '=')
    let condition : FieldCondition := ⟨name, some (String.ofList value)⟩
    if isDecimal value then .ok condition
    else
      match Pattern.fault? value with
      | none => .ok condition
      | some fault => .error (.badValue fault)

namespace Directive

def startsTarget (c : Char) : Bool :=
  c == '-' || c == ':' || c == '_' || isAlphabetic c || isNumeric c

def cut (start stop : Nat) (text : List Char) : Except DirectiveFault (List Char) :=
  match slice? start stop text with
  | some part => .ok part
  | none => .error .insideCharacter

/-- The threshold after an equals sign; without one everything is shown. -/
def readThreshold (chars : List Char) : Except DirectiveFault Threshold :=
  if chars.isEmpty then .ok (some .trace)
  else
    match Threshold.ofName? (String.ofList chars) with
    | some threshold => .ok threshold
    | none => .error .unknownLevel

/-- Completes a directive of which `rest` is still to be read, from the place
`start` of the text on. -/
def readLevel (text : List Char) (start : Nat) (rest : List Char) (directive : Directive) :
    Except DirectiveFault Directive := do
  match rest with
  | [] => return directive
  | '=' :: _ =>
    let level ← cut (start + 1) (bytes text) text
    return { directive with threshold := ← readThreshold level }
  | _ => throw .malformed

/-- Reads a directive from after the opening brace of a field, which is at the
place `start` of the text. -/
def readField (text : List Char) (start : Nat) (rest : List Char) (directive : Directive) :
    Except DirectiveFault Directive := do
  let stop := start + bytes (rest.takeWhile (· ≠ '\x7d'))
  match rest.dropWhile (· ≠ '\x7d') with
  | [] => throw .malformed
  | _ :: rest =>
    let field ← cut start stop text
    if field.isEmpty then throw .malformed
    let condition ← FieldCondition.read field
    match rest with
    | ']' :: rest => readLevel text (stop + 2) rest { directive with field := some condition }
    | _ => throw .malformed

/-- Reads a directive from after the opening bracket of a span, which is at the
place `start` of the text. -/
def readSpan (text : List Char) (start : Nat) (rest : List Char) (directive : Directive) :
    Except DirectiveFault Directive := do
  let name := rest.takeWhile fun c => c ≠ ']' && c ≠ '\x7b'
  let stop := start + bytes name
  match rest.drop name.length with
  | [] => throw .malformed
  | closing :: rest =>
    let span := String.ofList (← cut start stop text)
    if closing = ']' then
      readLevel text (stop + 1) rest { directive with span := some span }
    else
      readField text (stop + 1) rest
        { directive with span := if span.isEmpty then none else some span }

/-- A word that stands alone: a level, or else a target. -/
def ofWord (word : String) : Directive :=
  match Threshold.ofName? word with
  | some threshold => { threshold := threshold }
  | none => { target := some word }

def read (text : String) : Except DirectiveFault Directive := do
  let chars := text.toList
  match trimmed chars with
  | [] => throw .malformed
  | '[' :: rest => readSpan chars 1 rest {}
  | first :: rest =>
    if startsTarget first then
      let name := (first :: rest).takeWhile fun c => c ≠ '=' && c ≠ '['
      let stop := bytes name
      match (first :: rest).drop name.length with
      | [] => return ofWord text
      | '[' :: rest =>
        readSpan chars (stop + 1) rest { target := some (String.ofList (← cut 0 stop chars)) }
      | rest => readLevel chars stop rest { target := some (String.ofList (← cut 0 stop chars)) }
    else throw .malformed

/-- The field that every event carries. -/
def commonField : String := "message"

/-- Whether a directive is about an event.  Events are logged outside of spans, a
condition on a value is one on spans, and an event has no field but the
common one. -/
def isAbout (directive : Directive) (event : Event) : Bool :=
  directive.target.all (fun target => target.toList.isPrefixOf event.origin.path.toList) &&
    directive.span.isNone &&
    directive.field.all fun field => field.value.isNone && field.name == commonField

/-- How specific a directive is: a longer target is more so, and of two targets
of one length that with a field. -/
def detail (directive : Directive) : Nat × Nat :=
  (directive.target.elim 0 (·.utf8ByteSize + 1), directive.field.elim 0 fun _ => 1)

/-- Whether a directive is at most as specific as another. -/
def detailLe (a b : Directive) : Bool :=
  a.detail.1 < b.detail.1 || (a.detail.1 == b.detail.1 && a.detail.2 ≤ b.detail.2)

end Directive
end Log
end QasmHighlight
