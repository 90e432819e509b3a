import QasmHighlight.Lexeme.Name

/-!
# Numerals

A numeral is a body and a suffix.  The body is a radix letter after a zero
with digits of that radix, or a decimal: a whole part, a fraction and an
exponent.  Underscores may stand after the first digit of each part.  The suffix
is the run of name characters after the body, if that run is a unit.

Each part is read from the front of the text that remains, so the numeral is
always a leading part of the text.
-/

namespace QasmHighlight
namespace Lexeme

/-- The bases that a letter after a leading zero announces. -/
inductive Radix where
  | binary
  | octal
  | hexadecimal
  deriving DecidableEq

def Radix.ofLetter? (c : Char) : Option Radix :=
  if c = 'x' ∨ c = 'X' then some .hexadecimal
  else if c = 'o' ∨ c = 'O' then some .octal
  else if c = 'b' ∨ c = 'B' then some .binary
  else none

def Radix.isDigit (radix : Radix) (c : Char) : Bool :=
  match radix with
  | .binary => c == '0' || c == '1'
  | .octal => '0' ≤ c && c ≤ '7'
  | .hexadecimal => c.isDigit || ('a' ≤ c && c ≤ 'f') || ('A' ≤ c && c ≤ 'F')

namespace Numeral

/-- A character inside a run of decimal digits. -/
def inDigits (c : Char) : Bool :=
  c.isDigit || c == '_'

/-- A literal with a radix letter at the front of a text; it needs a digit of
its base right after the letter. -/
def radixBody? (text : List Char) : Option (List Char) :=
  match text with
  | '0' :: letter :: rest =>
    match Radix.ofLetter? letter with
    | none => none
    | some radix =>
      if rest.head?.any radix.isDigit then
        some ('0' :: letter :: rest.takeWhile fun c => radix.isDigit c || c == '_')
      else none
  | _ => none

def whole (text : List Char) : List Char :=
  text.takeWhile inDigits

/-- Whether a point before `rest` is the point of the numeral.  It is not when a
name or another point follows, except that an exponent mark may follow. -/
def pointBelongs (rest : List Char) : Bool :=
  match rest.head? with
  | none => true
  | some c => c.isDigit || c == 'e' || c == 'E' || (!startsName c && c != '.')

def fraction (text : List Char) : List Char :=
  match text with
  | '.' :: rest => if pointBelongs rest then '.' :: rest.takeWhile inDigits else []
  | _ => []

def sign (text : List Char) : List Char :=
  match text with
  | '+' :: _ => ['+']
  | '-' :: _ => ['-']
  | _ => []

/-- The mark, sign and digits of an exponent at the front of a text; it needs a
digit after the sign. -/
def exponent (text : List Char) : List Char :=
  match text with
  | [] => []
  | mark :: rest =>
    let digits := rest.drop (sign rest).length
    if (mark == 'e' || mark == 'E') && digits.head?.any Char.isDigit then
      mark :: (sign rest ++ digits.takeWhile inDigits)
    else []

def decimalBody (text : List Char) : List Char :=
  let afterWhole := text.drop (whole text).length
  let afterFraction := afterWhole.drop (fraction afterWhole).length
  whole text ++ fraction afterWhole ++ exponent afterFraction

/-- The numeral at the front of a text, without its suffix. -/
def body (text : List Char) : List Char :=
  (radixBody? text).getD (decimalBody text)

/-- The units that may follow a numeral: imaginary and durations. -/
def suffixes : List (List Char) :=
  ["im", "dt", "ns", "us", "µs", "ms", "s"].map String.toList

/-- The unit at the front of a text.  The whole run of name characters has to be
a unit. -/
def suffix (text : List Char) : List Char :=
  let run := text.takeWhile continuesName
  if run ∈ suffixes then run else []

def read (text : List Char) : List Char :=
  body text ++ suffix (text.drop (body text).length)

def begins (c : Char) (rest : List Char) : Bool :=
  c.isDigit || (c == '.' && rest.head?.any Char.isDigit)

/-! ### A numeral is a leading part of its text -/

/-- A leading part and a leading part of what remains are together a leading
part. -/
theorem isPrefix_append_of_drop {text a b : List Char} (ha : a <+: text)
    (hb : b <+: text.drop a.length) : a ++ b <+: text := by
  obtain ⟨rest, rfl⟩ := ha
  rw [List.drop_left] at hb
  exact (List.prefix_append_right_inj a).2 hb

theorem isPrefix_radixBody? {text found : List Char} (h : radixBody? text = some found) :
    found <+: text := by
  unfold radixBody? at h
  split at h
  · next letter rest =>
    split at h
    · cases h
    · split at h
      · cases h
        rw [List.cons_prefix_cons, List.cons_prefix_cons]
        exact ⟨rfl, rfl, List.takeWhile_prefix _⟩
      · cases h
  · cases h

theorem isPrefix_whole (text : List Char) : whole text <+: text :=
  List.takeWhile_prefix _

theorem isPrefix_fraction (text : List Char) : fraction text <+: text := by
  unfold fraction
  split
  · split
    · rw [List.cons_prefix_cons]
      exact ⟨rfl, List.takeWhile_prefix _⟩
    · exact List.nil_prefix
  · exact List.nil_prefix

theorem isPrefix_sign (text : List Char) : sign text <+: text := by
  unfold sign
  split
  · exact ⟨_, rfl⟩
  · exact ⟨_, rfl⟩
  · exact List.nil_prefix

theorem isPrefix_exponent (text : List Char) : exponent text <+: text := by
  unfold exponent
  split
  · exact List.nil_prefix
  · next mark rest =>
    dsimp only
    split
    · rw [List.cons_prefix_cons]
      refine ⟨rfl, isPrefix_append_of_drop (isPrefix_sign rest) ?_⟩
      exact List.takeWhile_prefix _
    · exact List.nil_prefix

theorem isPrefix_decimalBody (text : List Char) : decimalBody text <+: text := by
  unfold decimalBody
  rw [List.append_assoc]
  exact isPrefix_append_of_drop (isPrefix_whole text)
    (isPrefix_append_of_drop (isPrefix_fraction _) (isPrefix_exponent _))

theorem isPrefix_body (text : List Char) : body text <+: text := by
  unfold body
  cases h : radixBody? text with
  | none => exact isPrefix_decimalBody text
  | some found => exact isPrefix_radixBody? h

theorem isPrefix_suffix (text : List Char) : suffix text <+: text := by
  unfold suffix
  dsimp only
  split
  · exact List.takeWhile_prefix _
  · exact List.nil_prefix

theorem isPrefix_read (text : List Char) : read text <+: text :=
  isPrefix_append_of_drop (isPrefix_body text) (isPrefix_suffix _)

theorem read_ne_nil {c : Char} {rest : List Char} (h : begins c rest = true) :
    read (c :: rest) ≠ [] := by
  have hbody : body (c :: rest) ≠ [] := by
    unfold body
    cases hradix : radixBody? (c :: rest) with
    | some found =>
      unfold radixBody? at hradix
      split at hradix <;> try cases hradix
      split at hradix <;> try cases hradix
      split at hradix <;> cases hradix
      simp
    | none =>
      simp only [Option.getD_none, decimalBody]
      by_cases hdigit : c.isDigit = true
      · simp [whole, inDigits, hdigit]
      · simp only [begins, hdigit, Bool.false_or, Bool.and_eq_true, beq_iff_eq] at h
        obtain ⟨rfl, hnext⟩ := h
        have hpoint : pointBelongs rest = true := by
          unfold pointBelongs
          cases hhead : rest.head? with
          | none => rfl
          | some d =>
            rw [hhead] at hnext
            simp only [Option.any_some] at hnext
            simp [hnext]
        have hwhole : whole ('.' :: rest) = [] := by
          simp [whole, inDigits, hdigit]
        simp [hwhole, fraction, hpoint]
  simp [read, hbody]

end Numeral
end Lexeme
end QasmHighlight
