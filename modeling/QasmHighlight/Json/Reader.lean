import QasmHighlight.Json.Basic
import QasmHighlight.Text.Hexadecimal

/-!
# Reading JSON

A text is cut into marks and scalar values, and these are put together by a
machine that keeps the arrays and objects still open on a stack.  Each mark is
one step of the machine, so deep nesting costs no more than length.
-/

namespace QasmHighlight
namespace Json

open Text (hexDigit?)

/-- What a JSON text is cut into. -/
inductive Mark where
  | openArray
  | closeArray
  | openObject
  | closeObject
  | comma
  | colon
  | scalar (value : Json)

/-! ### Marks -/

def hexQuad? (a b c d : Char) : Option Nat := do
  return ((← hexDigit? a) * 16 + (← hexDigit? b)) * 256 + (← hexDigit? c) * 16 + (← hexDigit? d)

def shortEscape? (c : Char) : Option Char :=
  match c with
  | '"' => some '"'
  | '\\' => some '\\'
  | '/' => some '/'
  | 'b' => some '\x08'
  | 'f' => some '\x0c'
  | 'n' => some '\n'
  | 'r' => some '\r'
  | 't' => some '\t'
  | _ => none

/-- Characters read so far, the last one first, and the first half of a
surrogate pair that waits for its second. -/
structure ReadChars where
  chars : List Char
  half : Option Nat

/-- The characters read so far; a half that stays alone is replaced. -/
def ReadChars.settled (read : ReadChars) : List Char :=
  match read.half with
  | none => read.chars
  | some _ => '\ufffd' :: read.chars

def ReadChars.push (read : ReadChars) (c : Char) : ReadChars :=
  ⟨c :: read.settled, none⟩

def ReadChars.pushUnit (read : ReadChars) (unit : Nat) : ReadChars :=
  if 0xd800 ≤ unit ∧ unit < 0xdc00 then ⟨read.settled, some unit⟩
  else if 0xdc00 ≤ unit ∧ unit < 0xe000 then
    match read.half with
    | some high =>
      ⟨Char.ofNat (0x10000 + (high - 0xd800) * 0x400 + (unit - 0xdc00)) :: read.chars, none⟩
    | none => ⟨'\ufffd' :: read.chars, none⟩
  else read.push (Char.ofNat unit)

/-- The string whose opening quote was just read, and what follows it. -/
def readString? (read : ReadChars) (text : List Char) : Option (String × List Char) :=
  match text with
  | [] => none
  | '"' :: rest => some (String.ofList read.settled.reverse, rest)
  | '\\' :: 'u' :: a :: b :: c :: d :: rest =>
    match hexQuad? a b c d with
    | none => none
    | some unit => readString? (read.pushUnit unit) rest
  | '\\' :: c :: rest =>
    match shortEscape? c with
    | none => none
    | some char => readString? (read.push char) rest
  | c :: rest => if c = '\\' then none else readString? (read.push c) rest

def inNumber (c : Char) : Bool :=
  c.isDigit || c == '-' || c == '+' || c == '.' || c == 'e' || c == 'E'

def natOfDigits (digits : List Char) : Nat :=
  digits.foldl (fun n c => n * 10 + (c.toNat - '0'.toNat)) 0

def number? (chars : List Char) : Option Json :=
  let (negative, digits) :=
    match chars with
    | '-' :: rest => (true, rest)
    | _ => (false, chars)
  match digits with
  | [] => none
  | c :: _ =>
    if !c.isDigit then none
    else if digits.all Char.isDigit then
      let size : Int := natOfDigits digits
      some (.number (if negative then -size else size))
    else some (.decimal (String.ofList chars))

def word? (chars : List Char) : Option Json :=
  if chars = ['n', 'u', 'l', 'l'] then some .null
  else if chars = ['t', 'r', 'u', 'e'] then some (.bool true)
  else if chars = ['f', 'a', 'l', 's', 'e'] then some (.bool false)
  else none

def Mark.ofChar? (c : Char) : Option Mark :=
  match c with
  | '[' => some .openArray
  | ']' => some .closeArray
  | '\x7b' => some .openObject
  | '\x7d' => some .closeObject
  | ',' => some .comma
  | ':' => some .colon
  | _ => none

/-- The mark at the front of a text, and what follows it. -/
def Mark.read? (c : Char) (rest : List Char) : Option (Mark × List Char) :=
  match Mark.ofChar? c with
  | some mark => some (mark, rest)
  | none =>
    if c = '"' then
      (readString? ⟨[], none⟩ rest).map fun found => (.scalar (.string found.1), found.2)
    else if inNumber c then
      (number? (c :: rest.takeWhile inNumber)).map fun value =>
        (.scalar value, rest.dropWhile inNumber)
    else
      (word? (c :: rest.takeWhile Char.isAlpha)).map fun value =>
        (.scalar value, rest.dropWhile Char.isAlpha)

/-- A character that may stand between marks. -/
def isGap (c : Char) : Bool :=
  c == ' ' || c == '\t' || c == '\n' || c == '\r'

theorem length_readString?_le {read : ReadChars} {text rest : List Char} {value : String}
    (h : readString? read text = some (value, rest)) : rest.length ≤ text.length := by
  fun_induction readString? read text with
  | case1 => cases h
  | case2 => cases h; simp
  | case3 => cases h
  | case4 read a b c d tail unit _ ih =>
    have := ih h
    simp only [List.length_cons]
    omega
  | case5 => cases h
  | case6 read c tail char _ _ ih =>
    have := ih h
    simp only [List.length_cons]
    omega
  | case7 => cases h
  | case8 read c tail _ _ _ _ ih =>
    have := ih h
    simp only [List.length_cons]
    omega

theorem Mark.length_read?_le {c : Char} {rest after : List Char} {mark : Mark}
    (h : Mark.read? c rest = some (mark, after)) : after.length ≤ rest.length := by
  unfold Mark.read? at h
  split at h
  · cases h
    exact Nat.le_refl _
  · split at h
    · obtain ⟨⟨value, left⟩, hread, hpair⟩ := Option.map_eq_some_iff.1 h
      cases hpair
      exact length_readString?_le hread
    · split at h
      · obtain ⟨_, _, hpair⟩ := Option.map_eq_some_iff.1 h
        cases hpair
        exact (List.dropWhile_suffix _).length_le
      · obtain ⟨_, _, hpair⟩ := Option.map_eq_some_iff.1 h
        cases hpair
        exact (List.dropWhile_suffix _).length_le

/-- The marks of a text, put after `done`. -/
def marksInto? (done : Array Mark) (text : List Char) : Option (Array Mark) :=
  match text with
  | [] => some done
  | c :: rest =>
    if isGap c then marksInto? done rest
    else
      match _h : Mark.read? c rest with
      | none => none
      | some (mark, after) => marksInto? (done.push mark) after
termination_by text.length
decreasing_by
  · simp
  · have hshort := Mark.length_read?_le _h
    simp only [List.length_cons]
    omega

/-! ### Values -/

/-- An array or object that is still open, with what it holds so far, the last
first.  An object also has the key of the member being read. -/
inductive Frame where
  | array (items : List Json)
  | object (members : List (String × Json)) (key : String)

inductive Expectation where
  | value
  | valueOrClose
  | key (members : List (String × Json))
  | keyOrClose
  | colon (members : List (String × Json)) (key : String)
  | separator
  | nothing (value : Json)

/-- The open arrays and objects, the innermost first, and what may come next. -/
structure Machine where
  frames : List Frame
  expects : Expectation

/-- Hands a finished value to the innermost frame. -/
def Machine.finish (frames : List Frame) (value : Json) : Machine :=
  match frames with
  | [] => ⟨[], .nothing value⟩
  | .array items :: outer => ⟨.array (value :: items) :: outer, .separator⟩
  | .object members key :: outer => ⟨.object ((key, value) :: members) "" :: outer, .separator⟩

/-- Starts the value that a mark begins. -/
def Machine.begin? (frames : List Frame) (mark : Mark) : Option Machine :=
  match mark with
  | .scalar value => some (.finish frames value)
  | .openArray => some ⟨.array [] :: frames, .valueOrClose⟩
  | .openObject => some ⟨frames, .keyOrClose⟩
  | _ => none

def Machine.step? (machine : Machine) (mark : Mark) : Option Machine :=
  match machine.expects, mark with
  | .value, mark => Machine.begin? machine.frames mark
  | .valueOrClose, .closeArray => some (.finish machine.frames.tail (.array []))
  | .valueOrClose, mark => Machine.begin? machine.frames mark
  | .keyOrClose, .closeObject => some (.finish machine.frames (.object []))
  | .keyOrClose, .scalar (.string key) => some ⟨machine.frames, .colon [] key⟩
  | .key members, .scalar (.string key) => some ⟨machine.frames, .colon members key⟩
  | .colon members key, .colon => some ⟨.object members key :: machine.frames, .value⟩
  | .separator, mark =>
    match machine.frames, mark with
    | .array _ :: _, .comma => some ⟨machine.frames, .value⟩
    | .array items :: outer, .closeArray => some (.finish outer (.array items.reverse))
    | .object members _ :: outer, .comma => some ⟨outer, .key members⟩
    | .object members _ :: outer, .closeObject => some (.finish outer (.object members.reverse))
    | _, _ => none
  | _, _ => none

/-- The value that a text denotes; none if the text is malformed. -/
def parse? (text : String) : Option Json := do
  let marks ← marksInto? #[] text.toList
  let machine ← marks.foldlM Machine.step? ⟨[], .value⟩
  match machine.expects with
  | .nothing value => some value
  | _ => none

end Json
end QasmHighlight
