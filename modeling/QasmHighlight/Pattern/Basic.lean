/-!
# Patterns

A pattern describes a set of texts.  It is a choice of sequences of characters,
sets of characters, places, repetitions and groups.  Flags change what the rest
of a group or the inside of one means.

The height of a pattern is the number of compound parts that are nested in it.
-/

namespace QasmHighlight

/-- The ways in which the meaning of a pattern can be changed. -/
inductive PatternFlag where
  /-- Upper and lower case are not told apart. -/
  | caseless
  /-- The places at the ends of a text are also those at the ends of its lines. -/
  | lines
  /-- The point stands for line breaks too. -/
  | pointAll
  /-- Repetitions are as short as possible, unless said otherwise. -/
  | shortest
  /-- Characters are Unicode characters, else bytes. -/
  | unicode
  /-- CR and LF together end a line. -/
  | carriage
  /-- Blanks and comments in the pattern have no meaning. -/
  | spaced
  deriving DecidableEq

def PatternFlag.ofLetter? (letter : Char) : Option PatternFlag :=
  [('i', caseless), ('m', lines), ('s', pointAll), ('U', shortest), ('u', unicode),
   ('R', carriage), ('x', spaced)].lookup letter

structure FlagChange where
  on : List PatternFlag := []
  off : List PatternFlag := []

def FlagChange.apply (change : FlagChange) (flag : PatternFlag) (before : Bool) : Bool :=
  if change.on.contains flag then true
  else if change.off.contains flag then false
  else before

/-- A character of a pattern.  One that is written with two hexadecimal digits
can also stand for a byte. -/
structure PatternChar where
  char : Char
  isByte : Bool := false

inductive CharSet where
  | empty
  | char (c : PatternChar)
  | range (first last : PatternChar)
  /-- A class of ASCII characters that has a name. -/
  | named (name : String) (negated : Bool)
  /-- A class that has a letter; the capital letter stands for the complement. -/
  | shorthand (letter : Char)
  | union (parts : List CharSet)
  | bracketed (negated : Bool) (inner : CharSet)
  /-- An intersection or a difference. -/
  | combined (left right : CharSet)

inductive Pattern where
  | empty
  /-- A change of flags up to the end of the group. -/
  | flags (change : FlagChange)
  | char (c : PatternChar)
  /-- Any character. -/
  | point
  | oneOf (set : CharSet)
  /-- An end of the text or of a line. -/
  | edge
  /-- An end or no end of a word. -/
  | wordEdge
  | repeated (body : Pattern)
  /-- A group with the change of flags inside it. -/
  | group (change : FlagChange) (body : Pattern)
  | sequence (parts : List Pattern)
  | choice (branches : List Pattern)

def CharSet.ofParts : List CharSet → CharSet
  | [] => .empty
  | [part] => part
  | parts => .union parts

/-- The pattern with given parts, one after the other. -/
def Pattern.ofParts : List Pattern → Pattern
  | [] => .empty
  | [part] => part
  | parts => .sequence parts

def Pattern.ofBranches : List Pattern → Pattern
  | [branch] => branch
  | branches => .choice branches

mutual

/-- How deep the parts of a set are nested. -/
def CharSet.height : CharSet → Nat
  | .union parts => CharSet.heightOfAll parts + 1
  | .bracketed _ inner => inner.height + 1
  | .combined left right => max left.height right.height + 1
  | _ => 0

def CharSet.heightOfAll : List CharSet → Nat
  | [] => 0
  | set :: sets => max set.height (CharSet.heightOfAll sets)

end

mutual

def Pattern.height : Pattern → Nat
  | .oneOf set => set.height
  | .repeated body => body.height + 1
  | .group _ body => body.height + 1
  | .sequence parts => Pattern.heightOfAll parts + 1
  | .choice branches => Pattern.heightOfAll branches + 1
  | _ => 0

def Pattern.heightOfAll : List Pattern → Nat
  | [] => 0
  | pattern :: patterns => max pattern.height (Pattern.heightOfAll patterns)

end

end QasmHighlight
