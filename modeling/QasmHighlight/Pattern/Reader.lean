import QasmHighlight.Pattern.Basic
import QasmHighlight.Text.Alphabetic
import QasmHighlight.Text.Blank
import QasmHighlight.Text.Hexadecimal
import QasmHighlight.Text.Numeric

/-!
# Reading patterns

The reader goes through a pattern once, with a stack of the groups that are
still open, and through a set with a stack of the brackets that are still open.

A pattern stands between braces, in a list whose items are separated by commas,
and so holds neither a closing brace nor a comma.  What needs a closing brace
cannot be written in it: an opening brace outside of a set is a fault, and there
are neither named properties nor repetitions with a count.
-/

namespace QasmHighlight
namespace Pattern

open Text

/-! ### Blanks and comments -/

/-- A pattern without the blanks and comments at its front.  A comment goes
from a number sign to the end of the line. -/
def dropSpace (inComment : Bool) : List Char → List Char
  | [] => []
  | c :: rest =>
    if inComment then dropSpace (c ≠ '\n') rest
    else if isBlank c then dropSpace false rest
    else if c = '#' then dropSpace true rest
    else c :: rest

/-- What is left of a pattern when that without meaning is skipped. -/
def skip (spaced : Bool) (text : List Char) : List Char :=
  if spaced then dropSpace false text else text

theorem length_dropSpace_le (inComment : Bool) (text : List Char) :
    (dropSpace inComment text).length ≤ text.length := by
  induction text generalizing inComment with
  | nil => simp [dropSpace]
  | cons c rest ih =>
    unfold dropSpace
    have hstep (b : Bool) : (dropSpace b rest).length ≤ rest.length + 1 :=
      Nat.le_succ_of_le (ih b)
    split
    · exact hstep _
    · split
      · exact hstep _
      · split
        · exact hstep _
        · simp

theorem length_skip_le (spaced : Bool) (text : List Char) :
    (skip spaced text).length ≤ text.length := by
  unfold skip
  split
  · exact length_dropSpace_le _ _
  · exact Nat.le_refl _

/-! ### Escapes -/

/-- What a backslash and the characters after it stand for. -/
inductive Escape where
  | char (c : PatternChar)
  | shorthand (letter : Char)
  | edge
  | wordEdge

/-- Reads a number of hexadecimal digits; `value` is that of the digits before
them. -/
def readHex? (spaced : Bool) (value : Nat) : Nat → List Char → Option (Nat × List Char)
  | 0, text => some (value, skip spaced text)
  | count + 1, text =>
    match skip spaced text with
    | [] => none
    | c :: rest => do readHex? spaced (value * 16 + (← hexDigit? c)) count rest

def charOfCode? (code : Nat) : Option Char :=
  if code.isValidChar then some (Char.ofNat code) else none

def readCode? (spaced : Bool) (count : Nat) (text : List Char) :
    Option (Escape × List Char) := do
  let (code, rest) ← readHex? spaced 0 count text
  return (.char ⟨← charOfCode? code, count == 2⟩, rest)

def controlLetters : List (Char × Char) :=
  [('a', '\x07'), ('f', '\x0c'), ('t', '\t'), ('n', '\n'), ('r', '\r'), ('v', '\x0b')]

/-- Reads what comes after a backslash.  Of the other ASCII characters those
that are neither letters nor digits stand for themselves. -/
def readEscape? (spaced : Bool) (text : List Char) : Option (Escape × List Char) :=
  match text with
  | [] => none
  | 'x' :: rest => readCode? spaced 2 rest
  | 'u' :: rest => readCode? spaced 4 rest
  | 'U' :: rest => readCode? spaced 8 rest
  | c :: rest =>
    if ['d', 's', 'w', 'D', 'S', 'W'].contains c then some (.shorthand c, rest)
    else if ['A', 'z'].contains c then some (.edge, rest)
    else if ['b', 'B', '<', '>'].contains c then some (.wordEdge, rest)
    else
      match controlLetters.lookup c with
      | some control => some (.char ⟨control, false⟩, rest)
      | none =>
        if c.toNat < 0x80 && !c.isAlphanum then some (.char ⟨c, false⟩, rest) else none

/-! ### Sets -/

def classNames : List String :=
  ["alnum", "alpha", "ascii", "blank", "cntrl", "digit", "graph", "lower", "print", "punct",
   "space", "upper", "word", "xdigit"]

/-- Reads a named class from after its opening bracket. -/
def readNamed? (text : List Char) : Option (CharSet × List Char) := do
  let .cons ':' text := text | none
  let (negated, text) :=
    match text with
    | '^' :: rest => (true, rest)
    | _ => (false, text)
  let name := String.ofList (text.takeWhile (· ≠ ':'))
  let .cons ':' (.cons ']' rest) := text.dropWhile (· ≠ ':') | none
  if classNames.contains name then some (.named name negated, rest) else none

/-- A set that is still open: its parts since the last operator, the last first,
and all that comes before that operator. -/
structure OpenSet where
  negated : Bool
  left : Option CharSet := none
  parts : List CharSet := []

namespace OpenSet

def push (set : OpenSet) (part : CharSet) : OpenSet :=
  { set with parts := part :: set.parts }

def content (set : OpenSet) : CharSet :=
  let right := CharSet.ofParts set.parts.reverse
  match set.left with
  | none => right
  | some left => .combined left right

def operate (set : OpenSet) : OpenSet :=
  { set with left := some set.content, parts := [] }

def close (set : OpenSet) : CharSet :=
  .bracketed set.negated set.content

end OpenSet

/-- Reads the dashes at the front of a set, which stand for themselves. -/
def readDashes (spaced : Bool) (set : OpenSet) (text : List Char) : OpenSet × List Char :=
  match text with
  | '-' :: rest => readDashes spaced (set.push (.char ⟨'-', false⟩)) (skip spaced rest)
  | _ => (set, text)
termination_by text.length
decreasing_by
  have := length_skip_le spaced rest
  simp only [List.length_cons]
  omega

/-- Reads a set from after its opening bracket up to where its parts begin.
A closing bracket that comes first stands for itself. -/
def readOpening (spaced : Bool) (text : List Char) : OpenSet × List Char :=
  let (negated, text) :=
    match skip spaced text with
    | '^' :: rest => (true, skip spaced rest)
    | text => (false, text)
  match readDashes spaced { negated := negated } text with
  | (⟨negated, left, []⟩, ']' :: rest) =>
    (⟨negated, left, [.char ⟨']', false⟩]⟩, skip spaced rest)
  | opened => opened

/-- Reads one member of a set: a character or a class. -/
def readMember? (spaced : Bool) (text : List Char) : Option (CharSet × List Char) :=
  match text with
  | [] => none
  | '\\' :: rest =>
    match readEscape? spaced rest with
    | some (.char c, rest) => some (.char c, rest)
    | some (.shorthand letter, rest) => some (.shorthand letter, rest)
    | _ => none
  | c :: rest => some (.char ⟨c, false⟩, rest)

/-- Reads a member of a set, or a range of characters.  A dash before a closing
bracket or before another dash makes no range. -/
def readRange? (spaced : Bool) (text : List Char) : Option (CharSet × List Char) := do
  let (member, rest) ← readMember? spaced text
  match skip spaced rest with
  | [] => none
  | '-' :: after =>
    match skip spaced after with
    | [] => none
    | ']' :: _ | '-' :: _ => return (member, '-' :: after)
    | after =>
      match member, ← readMember? spaced after with
      | .char first, (.char last, rest) =>
        if first.char ≤ last.char then return (.range first last, rest) else none
      | _, _ => none
  | rest => return (member, rest)

/-- Reads on in a set, of which `set` is the innermost that is open. -/
def readSet? (spaced : Bool) (set : OpenSet) (enclosing : List OpenSet) (text : List Char) :
    Option (CharSet × List Char) :=
  let next (set : OpenSet) (enclosing : List OpenSet) (rest : List Char) :
      Option (CharSet × List Char) :=
    if _h : rest.length < text.length then readSet? spaced set enclosing rest else none
  match skip spaced text with
  | [] => none
  | ']' :: rest =>
    match enclosing with
    | [] => some (set.close, rest)
    | outer :: enclosing => next (outer.push set.close) enclosing rest
  | '[' :: rest =>
    match readNamed? rest with
    | some (named, rest) => next (set.push named) enclosing rest
    | none =>
      let (inner, rest) := readOpening spaced rest
      next inner (set :: enclosing) rest
  | '&' :: '&' :: rest | '-' :: '-' :: rest | '~' :: '~' :: rest => next set.operate enclosing rest
  | rest =>
    match readRange? spaced rest with
    | none => none
    | some (part, rest) => next (set.push part) enclosing rest
termination_by text.length

/-! ### Groups -/

/-- A group that is still open: the parts of its last branch and the branches
before that, in each case the last first, and whether blanks had a meaning
before it. -/
structure OpenGroup where
  change : FlagChange := {}
  spacedBefore : Bool := false
  branches : List Pattern := []
  parts : List Pattern := []

namespace OpenGroup

def push (group : OpenGroup) (part : Pattern) : OpenGroup :=
  { group with parts := part :: group.parts }

def branch (group : OpenGroup) : OpenGroup :=
  { group with branches := .ofParts group.parts.reverse :: group.branches, parts := [] }

def content (group : OpenGroup) : Pattern :=
  .ofBranches group.branch.branches.reverse

/-- The group with its last part repeated; none if there is nothing to repeat. -/
def repeatLast? (group : OpenGroup) : Option OpenGroup :=
  match group.parts with
  | [] | .flags _ :: _ => none
  | part :: parts => some { group with parts := .repeated part :: parts }

end OpenGroup

/-- The state of the reader: the groups that are open, the innermost first and apart,
whether blanks have no meaning, and the names of the groups so far. -/
structure ReaderState where
  group : OpenGroup := {}
  enclosing : List OpenGroup := []
  spaced : Bool := false
  names : List String := []

namespace ReaderState

def push (state : ReaderState) (part : Pattern) : ReaderState :=
  { state with group := state.group.push part }

def openGroup (state : ReaderState) (change : FlagChange) : ReaderState :=
  { state with
    group := { change := change, spacedBefore := state.spaced }
    enclosing := state.group :: state.enclosing
    spaced := change.apply .spaced state.spaced }

def closeGroup? (state : ReaderState) : Option ReaderState :=
  match state.enclosing with
  | [] => none
  | outer :: enclosing =>
    some
      { state with
        group := outer.push (.group state.group.change state.group.content)
        enclosing := enclosing
        spaced := state.group.spacedBefore }

def changeFlags (state : ReaderState) (change : FlagChange) : ReaderState :=
  { state.push (.flags change) with spaced := change.apply .spaced state.spaced }

end ReaderState

def continuesGroupName (c : Char) : Bool :=
  c == '_' || c == '.' || c == '[' || c == ']' || isAlphabetic c || isNumeric c

def isGroupName (name : List Char) : Bool :=
  name.head?.any (fun c => c == '_' || isAlphabetic c) && name.all continuesGroupName

def readName? (state : ReaderState) (text : List Char) : Option (ReaderState × List Char) :=
  let name := text.takeWhile (· ≠ '>')
  match text.dropWhile (· ≠ '>') with
  | [] => none
  | _ :: rest =>
    if isGroupName name && !state.names.contains (String.ofList name) then
      some ({ state with names := String.ofList name :: state.names }.openGroup {}, rest)
    else none

/-- Reads flags up to a colon or a closing parenthesis, which is given with the
rest.  A minus sign, once and not at the end, comes before the flags that are
turned off. -/
def readFlags? (change : FlagChange) (negated : Bool) :
    List Char → Option (FlagChange × Char × List Char)
  | [] => none
  | c :: rest =>
    if c = ':' || c = ')' then
      if negated && change.off.isEmpty then none else some (change, c, rest)
    else if c = '-' then
      if negated then none else readFlags? change true rest
    else
      match PatternFlag.ofLetter? c with
      | none => none
      | some flag =>
        if change.on.contains flag || change.off.contains flag then none
        else if negated then readFlags? { change with off := flag :: change.off } true rest
        else readFlags? { change with on := flag :: change.on } false rest

/-- Reads the beginning of a group from after its parenthesis, or a change of
flags. -/
def readGroup? (state : ReaderState) (text : List Char) : Option (ReaderState × List Char) :=
  match skip state.spaced text with
  | '?' :: '<' :: '!' :: _ => none
  | '?' :: 'P' :: '<' :: rest | '?' :: '<' :: rest => readName? state rest
  | '?' :: rest =>
    match readFlags? {} false rest with
    | none => none
    | some (change, closing, rest) =>
      if closing = ':' then some (state.openGroup change, rest)
      else if change.on.isEmpty && change.off.isEmpty then none
      else some (state.changeFlags change, rest)
  | rest => some (state.openGroup {}, rest)

def ofEscape : Escape → Pattern
  | .char c => .char c
  | .shorthand letter => .oneOf (.shorthand letter)
  | .edge => .edge
  | .wordEdge => .wordEdge

/-- Reads the part of a pattern that begins with `c`. -/
def readPart? (state : ReaderState) (c : Char) (rest : List Char) :
    Option (ReaderState × List Char) :=
  match c with
  | '(' => readGroup? state rest
  | ')' => state.closeGroup?.map (·, rest)
  | '|' => some ({ state with group := state.group.branch }, rest)
  | '[' =>
    let (set, rest) := readOpening state.spaced rest
    (readSet? state.spaced set [] rest).map fun found => (state.push (.oneOf found.1), found.2)
  | '?' | '*' | '+' =>
    state.group.repeatLast?.map fun group =>
      ({ state with group := group }, if rest.head? = some '?' then rest.tail else rest)
  | '\x7b' => none
  | '\\' =>
    (readEscape? state.spaced rest).map fun found => (state.push (ofEscape found.1), found.2)
  | '.' => some (state.push .point, rest)
  | '^' | '$' => some (state.push .edge, rest)
  | c => some (state.push (.char ⟨c, false⟩), rest)

def readFrom? (state : ReaderState) (text : List Char) : Option Pattern :=
  match skip state.spaced text with
  | [] => if state.enclosing.isEmpty then some state.group.content else none
  | c :: rest =>
    match readPart? state c rest with
    | none => none
    | some (state, rest) =>
      if _h : rest.length < text.length then readFrom? state rest else none
termination_by text.length

/-- The pattern that a text denotes; none if the text is malformed. -/
def read? (text : List Char) : Option Pattern :=
  readFrom? {} text

end Pattern
end QasmHighlight
