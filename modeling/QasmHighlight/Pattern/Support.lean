import QasmHighlight.Pattern.Reader

/-!
# Supported patterns

A pattern is turned into an automaton before it is used.  No tables of Unicode
are at hand for that: Unicode characters cannot be compared without regard to
case, there are no Unicode classes for the letters, and the ends of Unicode words
are unknown.  Where characters are bytes, a pattern must not match a part of a
character, so that neither the point nor a complement can be used.
-/

namespace QasmHighlight

/-- The flags that decide whether a part of a pattern is supported. -/
structure PatternModes where
  caseless : Bool := false
  unicode : Bool := true

namespace PatternModes

def apply (modes : PatternModes) (change : FlagChange) : PatternModes :=
  { caseless := change.apply .caseless modes.caseless
    unicode := change.apply .unicode modes.unicode }

def admits (modes : PatternModes) (c : PatternChar) : Bool :=
  if modes.unicode then !modes.caseless else !c.isByte || c.char.toNat < 0x80

def admitsInSet (modes : PatternModes) (c : PatternChar) : Bool :=
  if modes.unicode then !modes.caseless else c.char.toNat < 0x80

end PatternModes

mutual

def CharSet.isSupported (modes : PatternModes) : CharSet → Bool
  | .empty => true
  | .char c => modes.admitsInSet c
  | .range first last => modes.admitsInSet first && modes.admitsInSet last
  | .named _ negated => if modes.unicode then !modes.caseless else !negated
  | .shorthand letter => !modes.unicode && letter.isLower
  | .union parts => CharSet.areSupported modes parts
  | .bracketed negated inner => (modes.unicode || !negated) && inner.isSupported modes
  | .combined left right => left.isSupported modes && right.isSupported modes

def CharSet.areSupported (modes : PatternModes) : List CharSet → Bool
  | [] => true
  | set :: sets => set.isSupported modes && CharSet.areSupported modes sets

end

/-- What is known of a pattern up to one of its parts: the modes that hold there,
and whether it asks for the ends of Unicode words. -/
structure PatternSurvey where
  modes : PatternModes := {}
  unicodeWords : Bool := false

mutual

/-- Goes through a pattern; none if a part of it is not supported. -/
def Pattern.survey? (before : PatternSurvey) : Pattern → Option PatternSurvey
  | .empty | .edge => some before
  | .flags change => some { before with modes := before.modes.apply change }
  | .char c => if before.modes.admits c then some before else none
  | .point => if before.modes.unicode then some before else none
  | .oneOf set => if set.isSupported before.modes then some before else none
  | .wordEdge =>
    some { before with unicodeWords := before.unicodeWords || before.modes.unicode }
  | .repeated body => body.survey? before
  | .group change body =>
    (body.survey? { before with modes := before.modes.apply change }).map fun after =>
      { after with modes := before.modes }
  | .sequence parts => Pattern.surveyAll? before parts
  | .choice branches => Pattern.surveyAll? before branches

/-- Goes through some patterns, one after the other. -/
def Pattern.surveyAll? (before : PatternSurvey) : List Pattern → Option PatternSurvey
  | [] => some before
  | pattern :: patterns => (pattern.survey? before).bind (Pattern.surveyAll? · patterns)

end

inductive PatternFault where
  | invalid
  /-- It asks for the ends of Unicode words. -/
  | unicodeWords
  deriving DecidableEq

def PatternFault.message : PatternFault → String
  | invalid => "error building NFA"
  | unicodeWords =>
    "unsupported regex feature for DFAs: cannot build DFAs for regexes with Unicode word " ++
      "boundaries; switch to ASCII word boundaries, or heuristically enable Unicode word " ++
      "boundaries or use a different regex engine"

/-- The parts of a pattern are nested at most this deep. -/
def Pattern.maxHeight : Nat := 250

/-- Why a text cannot be used as a pattern, if it cannot. -/
def Pattern.fault? (text : List Char) : Option PatternFault :=
  match Pattern.read? text with
  | none => some .invalid
  | some pattern =>
    if Pattern.maxHeight < pattern.height then some .invalid
    else
      match pattern.survey? {} with
      | none => some .invalid
      | some survey => if survey.unicodeWords then some .unicodeWords else none

end QasmHighlight
