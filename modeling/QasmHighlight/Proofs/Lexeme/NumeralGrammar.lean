import QasmHighlight.Proofs.Lexeme.Stop

/-!
# The grammar of numerals

The readers of a numeral's parts look one or two characters ahead and take what
they can.  Here the parts are described without the readers: digits with
underscores after the first, a point that digits may follow, an exponent, and a
radix letter after a zero.  Every numeral of a scan is a body of this form and a
unit, and it is as long as it can be: the digits of the body do not go on after
it, no exponent follows a body that has none, and the radix form is taken
wherever it can be.
-/

namespace QasmHighlight

open Text

namespace Text

private theorem drop_length_takeWhile (accept : Char → Bool) (text : List Char) :
    text.drop (text.takeWhile accept).length = text.dropWhile accept := by
  have hparts : text.takeWhile accept ++ text.dropWhile accept = text :=
    List.takeWhile_append_dropWhile
  have hdrop := congrArg (List.drop (text.takeWhile accept).length) hparts
  rw [List.drop_left] at hdrop
  exact hdrop.symm

end Text

namespace Lexeme

/-- The letters that announce a base. -/
def Radix.letters : Radix → List Char
  | .binary => ['b', 'B']
  | .octal => ['o', 'O']
  | .hexadecimal => ['x', 'X']

theorem Radix.ofLetter?_eq_some_iff {c : Char} {radix : Radix} :
    Radix.ofLetter? c = some radix ↔ c ∈ radix.letters := by
  unfold Radix.ofLetter?
  constructor
  · intro hletter
    split at hletter
    · next hx =>
      cases hletter
      simpa [Radix.letters] using hx
    split at hletter
    · next ho =>
      cases hletter
      simpa [Radix.letters] using ho
    split at hletter
    · next hb =>
      cases hletter
      simpa [Radix.letters] using hb
    · cases hletter
  · intro hmem
    cases radix <;> rcases List.mem_pair.1 hmem with rfl | rfl <;> rfl

namespace Numeral

/-- A digit, and then any number of digits and underscores. -/
inductive IsDigits (isDigit : Char → Bool) : List Char → Prop
  | mk {d : Char} {more : List Char} : isDigit d = true →
      (∀ c ∈ more, isDigit c = true ∨ c = '_') → IsDigits isDigit (d :: more)

inductive IsRadixBody (radix : Radix) : List Char → Prop
  | mk {letter : Char} {digits : List Char} : letter ∈ radix.letters →
      IsDigits radix.isDigit digits → IsRadixBody radix ('0' :: letter :: digits)

inductive IsPointed : List Char → Prop
  | mk {digits : List Char} : IsDigits Char.isDigit digits → IsPointed ('.' :: digits)

inductive IsExponent : List Char → Prop
  | mk {mark : Char} {sign digits : List Char} : mark = 'e' ∨ mark = 'E' →
      sign = [] ∨ sign = ['+'] ∨ sign = ['-'] → IsDigits Char.isDigit digits →
      IsExponent (mark :: (sign ++ digits))

/-- A decimal body with its fraction and its exponent, either of which may be
empty. -/
inductive IsDecimalBody : List Char → List Char → List Char → Prop
  | whole {whole fraction exponent : List Char} : IsDigits Char.isDigit whole →
      fraction = [] ∨ fraction = ['.'] ∨ IsPointed fraction →
      exponent = [] ∨ IsExponent exponent →
      IsDecimalBody fraction exponent (whole ++ fraction ++ exponent)
  | pointed {fraction exponent : List Char} : IsPointed fraction →
      exponent = [] ∨ IsExponent exponent →
      IsDecimalBody fraction exponent (fraction ++ exponent)

/-- Digits do not go on with what follows. -/
def DigitsEnd (isDigit : Char → Bool) (following : List Char) : Prop :=
  ∀ c, following.head? = some c → c ≠ '_' ∧ isDigit c = false

/-- A point that follows is one of two points, or stands before a name. -/
def PointApart (following : List Char) : Prop :=
  ∀ more, following = '.' :: more →
    ∃ d, more.head? = some d ∧ (d = '.' ∨ startsName d = true ∧ d ≠ 'e' ∧ d ≠ 'E')

/-- The body of a numeral in one of its forms, and as long as it can be before
what follows. -/
def IsBodyBefore (body following : List Char) : Prop :=
  (∃ radix, IsRadixBody radix body ∧ DigitsEnd radix.isDigit following) ∨
    ∃ fraction exponent, IsDecimalBody fraction exponent body ∧
      DigitsEnd Char.isDigit following ∧
      (exponent = [] → ∀ start, start <+: following → ¬ IsExponent start) ∧
      (fraction = [] → exponent = [] → PointApart following)

/-! ## Digits -/

section Digits

variable {isDigit : Char → Bool} {text : List Char}

private theorem IsDigits.head?_append_any {digits : List Char} (hdigits : IsDigits isDigit digits)
    (rest : List Char) : (digits ++ rest).head?.any isDigit = true := by
  cases hdigits with
  | mk hd _ => exact hd

theorem isDigits_takeWhile (hhead : text.head?.any isDigit = true) :
    IsDigits isDigit (text.takeWhile fun c => isDigit c || c == '_') := by
  cases text with
  | nil => cases hhead
  | cons d rest =>
      have hd : isDigit d = true := hhead
      rw [List.takeWhile_cons_of_pos (by simp [hd])]
      refine .mk hd ?_
      intro c hc
      simpa using List.mem_takeWhile_imp hc

theorem digitsEnd_drop_takeWhile (isDigit : Char → Bool) (text : List Char) :
    DigitsEnd isDigit
      (text.drop (text.takeWhile fun c => isDigit c || c == '_').length) := by
  intro c hc
  rw [drop_length_takeWhile] at hc
  have hstop := not_accepted_of_head?_dropWhile hc
  rw [Bool.or_eq_false_iff, beq_eq_false_iff_ne] at hstop
  exact hstop.symm

theorem DigitsEnd.takeWhile_eq_nil (hend : DigitsEnd isDigit text) :
    (text.takeWhile fun c => isDigit c || c == '_') = [] := by
  cases text with
  | nil => rfl
  | cons c rest =>
      obtain ⟨hunderscore, hdigit⟩ := hend c rfl
      simp [hunderscore, hdigit]

end Digits

/-! ## Radix bodies -/

theorem radixBody?_of_isPrefix_isRadixBody {radix : Radix} {text start : List Char}
    (hleads : start <+: text) (hstart : IsRadixBody radix start) :
    ∃ digits, radixBody? text = some digits ∧ IsRadixBody radix digits := by
  obtain ⟨rest, rfl⟩ := hleads
  cases hstart with
  | @mk letter digits hletter hdigits =>
      have hhead := hdigits.head?_append_any rest
      refine ⟨_, ?_, .mk hletter (isDigits_takeWhile hhead)⟩
      simp only [List.cons_append, radixBody?, Radix.ofLetter?_eq_some_iff.2 hletter, hhead,
        if_true]

theorem isRadixBody_of_radixBody? {text found : List Char} (hfound : radixBody? text = some found) :
    ∃ radix, IsRadixBody radix found ∧ DigitsEnd radix.isDigit (text.drop found.length) := by
  unfold radixBody? at hfound
  split at hfound
  · next letter rest =>
    split at hfound
    · cases hfound
    · next radix hradix =>
      split at hfound
      · next hdigit =>
        cases hfound
        refine ⟨radix, .mk (Radix.ofLetter?_eq_some_iff.1 hradix) (isDigits_takeWhile hdigit), ?_⟩
        exact digitsEnd_drop_takeWhile radix.isDigit rest
      · cases hfound
  · cases hfound

/-! ## Decimal bodies -/

theorem fraction_cases (text : List Char) :
    fraction text = [] ∨ fraction text = ['.'] ∨ IsPointed (fraction text) := by
  unfold fraction
  split
  · next rest =>
    split
    · next hpoint =>
      right
      by_cases hdigit : rest.head?.any Char.isDigit = true
      · right
        exact .mk (isDigits_takeWhile hdigit)
      · left
        have hend : DigitsEnd Char.isDigit rest := by
          intro c hc
          rw [pointBelongs, hc] at hpoint
          rw [hc] at hdigit
          have hnot : c.isDigit = false := by simpa using hdigit
          refine ⟨?_, hnot⟩
          rintro rfl
          revert hpoint
          decide
        exact congrArg ('.' :: ·) hend.takeWhile_eq_nil
    · exact .inl rfl
  · exact .inl rfl

private theorem pointApart_of_fraction_eq_nil {text : List Char} (hnone : fraction text = []) :
    PointApart text := by
  rintro more rfl
  rw [fraction] at hnone
  split at hnone
  · cases hnone
  · next hpoint =>
    cases more with
    | nil => exact absurd rfl hpoint
    | cons d later =>
        refine ⟨d, rfl, ?_⟩
        simp only [pointBelongs, List.head?_cons, Bool.or_eq_true, Bool.and_eq_true,
          Bool.not_eq_true', beq_iff_eq, bne_iff_ne, not_or, not_and] at hpoint
        obtain ⟨⟨⟨_, he⟩, hE⟩, hname⟩ := hpoint
        by_cases hdot : d = '.'
        · exact .inl hdot
        · refine .inr ⟨?_, he, hE⟩
          by_contra hnot
          exact hname (eq_false_of_ne_true hnot) hdot

private theorem digitsEnd_drop_fraction {text : List Char} (hend : DigitsEnd Char.isDigit text) :
    DigitsEnd Char.isDigit (text.drop (fraction text).length) := by
  unfold fraction
  split
  · next rest =>
    split
    · exact digitsEnd_drop_takeWhile Char.isDigit rest
    · exact hend
  · exact hend

private theorem sign_cases (text : List Char) :
    sign text = [] ∨ sign text = ['+'] ∨ sign text = ['-'] := by
  unfold sign
  split
  · exact .inr (.inl rfl)
  · exact .inr (.inr rfl)
  · exact .inl rfl

private theorem sign_of_head?_isDigit {text : List Char}
    (hdigit : text.head?.any Char.isDigit = true) : sign text = [] := by
  unfold sign
  split
  · cases hdigit
  · cases hdigit
  · rfl

theorem exponent_ne_nil_of_isPrefix {text start : List Char} (hleads : start <+: text)
    (hstart : IsExponent start) : exponent text ≠ [] := by
  obtain ⟨rest, rfl⟩ := hleads
  cases hstart with
  | @mk mark before digits hmark hsign hdigits =>
      have hhead := hdigits.head?_append_any rest
      have hread : sign (before ++ (digits ++ rest)) = before := by
        rcases hsign with rfl | rfl | rfl
        · exact sign_of_head?_isDigit hhead
        · rfl
        · rfl
      have hletter : (mark == 'e' || mark == 'E') = true := by simpa using hmark
      rw [List.cons_append, List.append_assoc, exponent, hread, List.drop_left, hletter, hhead]
      exact List.cons_ne_nil _ _

theorem exponent_cases (text : List Char) :
    exponent text = [] ∨
      IsExponent (exponent text) ∧
        DigitsEnd Char.isDigit (text.drop (exponent text).length) := by
  cases text with
  | nil => exact .inl rfl
  | cons mark rest =>
      rw [exponent]
      split
      · next hexponent =>
        right
        rw [Bool.and_eq_true, Bool.or_eq_true, beq_iff_eq, beq_iff_eq] at hexponent
        obtain ⟨hmark, hdigit⟩ := hexponent
        refine ⟨.mk hmark (sign_cases rest) (isDigits_takeWhile hdigit), ?_⟩
        have hend := digitsEnd_drop_takeWhile Char.isDigit (rest.drop (sign rest).length)
        rw [List.drop_drop] at hend
        rw [List.length_cons, List.drop_succ_cons, List.length_append]
        exact hend
      · exact .inl rfl

private theorem pointBelongs_of_head?_isDigit {rest : List Char}
    (hdigit : rest.head?.any Char.isDigit = true) : pointBelongs rest = true := by
  cases rest with
  | nil => cases hdigit
  | cons d more =>
      have hd : d.isDigit = true := hdigit
      simp [pointBelongs, hd]

theorem isDecimalBody_parts {c : Char} {rest exponent : List Char}
    (hbegins : begins c rest = true) (hexponent : exponent = [] ∨ IsExponent exponent) :
    IsDecimalBody (fraction ((c :: rest).drop (whole (c :: rest)).length)) exponent
      (whole (c :: rest) ++ fraction ((c :: rest).drop (whole (c :: rest)).length) ++ exponent) := by
  by_cases hdigit : c.isDigit = true
  · exact .whole (isDigits_takeWhile hdigit) (fraction_cases _) hexponent
  · simp only [begins, hdigit, Bool.false_or, Bool.and_eq_true, beq_iff_eq] at hbegins
    obtain ⟨rfl, hnext⟩ := hbegins
    have hpointed : IsPointed (fraction ('.' :: rest)) := by
      rw [fraction, if_pos (pointBelongs_of_head?_isDigit hnext)]
      exact .mk (isDigits_takeWhile hnext)
    exact .pointed hpointed hexponent

/-- A decimal body is read part by part, each from what the one before leaves. -/
theorem isBodyBefore_decimalBody {c : Char} {rest : List Char} (hbegins : begins c rest = true) :
    IsBodyBefore (decimalBody (c :: rest))
      ((c :: rest).drop (decimalBody (c :: rest)).length) := by
  let afterWhole := (c :: rest).drop (whole (c :: rest)).length
  let afterFraction := afterWhole.drop (fraction afterWhole).length
  have hfollowing : (c :: rest).drop (decimalBody (c :: rest)).length =
      afterFraction.drop (exponent afterFraction).length := by
    simp only [decimalBody, List.length_append, ← List.drop_drop, afterFraction, afterWhole]
  have hend : DigitsEnd Char.isDigit afterFraction :=
    digitsEnd_drop_fraction (digitsEnd_drop_takeWhile Char.isDigit (c :: rest))
  rw [hfollowing]
  refine .inr ⟨fraction afterWhole, exponent afterFraction, ?_⟩
  rcases exponent_cases afterFraction with hnone | ⟨hexponent, hends⟩
  · refine ⟨isDecimalBody_parts hbegins (.inl hnone), ?_⟩
    rw [hnone, List.length_nil, List.drop_zero]
    refine ⟨hend, ?_, ?_⟩
    · intro _ start hleads hstart
      exact exponent_ne_nil_of_isPrefix hleads hstart hnone
    · intro hnoFraction _
      have hsame : afterFraction = afterWhole := by
        simp only [afterFraction, hnoFraction, List.length_nil, List.drop_zero]
      rw [hsame]
      exact pointApart_of_fraction_eq_nil hnoFraction
  · have hsome : exponent afterFraction ≠ [] := by
      intro hnone
      rw [hnone] at hexponent
      cases hexponent
    refine ⟨isDecimalBody_parts hbegins (.inr hexponent), hends, ?_, ?_⟩
    · intro hnone
      exact absurd hnone hsome
    · intro _ hnone
      exact absurd hnone hsome

/-! ## The numeral at the front of a text -/

theorem isBodyBefore_body {c : Char} {rest : List Char} (hbegins : begins c rest = true) :
    IsBodyBefore (body (c :: rest)) ((c :: rest).drop (body (c :: rest)).length) := by
  unfold body
  cases hradix : radixBody? (c :: rest) with
  | some found => exact .inl (isRadixBody_of_radixBody? hradix)
  | none => exact isBodyBefore_decimalBody hbegins

theorem isRadixBody_body {radix : Radix} {text start : List Char} (hleads : start <+: text)
    (hstart : IsRadixBody radix start) : IsRadixBody radix (body text) := by
  obtain ⟨found, hfound, hform⟩ := radixBody?_of_isPrefix_isRadixBody hleads hstart
  rw [body, hfound]
  exact hform

theorem exists_run_suffix (text : List Char) :
    ∃ run rest, text = run ++ rest ∧ (∀ c ∈ run, continuesName c = true) ∧
      (∀ c, rest.head? = some c → continuesName c = false) ∧
      suffix text = if run ∈ suffixes then run else [] := by
  refine ⟨text.takeWhile continuesName, text.dropWhile continuesName, ?_, ?_, ?_, rfl⟩
  · exact List.takeWhile_append_dropWhile.symm
  · intro c hc
    exact List.mem_takeWhile_imp hc
  · intro c hc
    exact not_accepted_of_head?_dropWhile hc

end Numeral
end Lexeme

theorem Piece.eq_of_first_eq_number {c : Char} {rest chars : List Char}
    (hpiece : first c rest = .lexeme .number chars) :
    Lexeme.Numeral.begins c rest = true ∧ chars = Lexeme.Numeral.read (c :: rest) := by
  cases reads_of_first_eq hpiece with
  | number hbegins => exact ⟨hbegins, rfl⟩

open Lexeme Lexeme.Numeral

/-- Every numeral of a source is a body and a unit.  The body has the form of a
numeral and goes as far as it can, in the radix form where the source allows it;
the unit is the run of name characters after it, if that is one. -/
theorem numeral_extent_exact {source : List Char} {lexeme : Lexeme}
    (hlexeme : lexeme ∈ (scan source).lexemes) (hkind : lexeme.kind = .number) :
    ∃ before body suffix after : List Char,
      source = before ++ body ++ suffix ++ after ∧
      lexeme.position = positionAt source before.length ∧
      lexeme.text = String.ofList (body ++ suffix) ∧
      IsBodyBefore body (suffix ++ after) ∧
      (∀ radix start, start <+: body ++ suffix ++ after → IsRadixBody radix start →
        IsRadixBody radix body) ∧
      ∃ run rest, suffix ++ after = run ++ rest ∧ (∀ c ∈ run, continuesName c = true) ∧
        (∀ c, rest.head? = some c → continuesName c = false) ∧
        suffix = if run ∈ suffixes then run else [] := by
  obtain ⟨stop, c, rest, chars, hrest, hfirst, hparts⟩ :=
    Stop.exists_of_mem_lexemes hlexeme (by simp [hkind])
  rw [hkind] at hfirst hparts
  obtain ⟨hbegins, rfl⟩ := Piece.eq_of_first_eq_number hfirst
  have hbody := List.prefix_iff_eq_append.1 (isPrefix_body (c :: rest))
  obtain ⟨after, hsuffix⟩ := isPrefix_suffix ((c :: rest).drop (body (c :: rest)).length)
  refine ⟨stop.before, body (c :: rest), suffix ((c :: rest).drop (body (c :: rest)).length),
    after, ?_, ?_, ?_, ?_, ?_, ?_⟩
  · rw [List.append_assoc, List.append_assoc, hsuffix, hbody, ← hrest, stop.before_append_rest]
  · rw [hparts]
    rfl
  · rw [hparts]
    rfl
  · rw [hsuffix]
    exact isBodyBefore_body hbegins
  · intro radix start hleads hstart
    rw [List.append_assoc, hsuffix, hbody] at hleads
    exact isRadixBody_body hleads hstart
  · rw [hsuffix]
    exact exists_run_suffix _

/-- A point before an exponent, and a unit. -/
theorem numeral_extent_exact_point_exponent :
    let source := "1.e3ns".toList
    let lexeme : Lexeme := ⟨.number, "1.e3ns", ⟨1, 0⟩, 6⟩
    lexeme ∈ (scan source).lexemes ∧ lexeme.kind = .number ∧
    ∃ before body suffix after : List Char,
      source = before ++ body ++ suffix ++ after ∧
      lexeme.position = positionAt source before.length ∧
      lexeme.text = String.ofList (body ++ suffix) ∧
      IsBodyBefore body (suffix ++ after) ∧
      (∀ radix start, start <+: body ++ suffix ++ after → IsRadixBody radix start →
        IsRadixBody radix body) ∧
      ∃ run rest, suffix ++ after = run ++ rest ∧ (∀ c ∈ run, continuesName c = true) ∧
        (∀ c, rest.head? = some c → continuesName c = false) ∧
        suffix = if run ∈ suffixes then run else [] := by
  intro source lexeme
  have hscan : (scan source).lexemes = [lexeme] := by decide +kernel
  have hlexeme : lexeme ∈ (scan source).lexemes := by
    rw [hscan]
    exact List.mem_singleton_self lexeme
  exact ⟨hlexeme, rfl, numeral_extent_exact hlexeme rfl⟩

end QasmHighlight
