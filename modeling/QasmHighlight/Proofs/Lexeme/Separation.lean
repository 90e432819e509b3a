import QasmHighlight.Proofs.Lexeme.SingleLine

/-!
# Where numerals, names and operators end

How far a numeral, a name or an operator goes is decided by the characters after
it, and in a numeral by several of them.  None of their readers looks beyond a
blank character or a slash: what they find in a text is what they find in it when
more text follows after one of the two.
-/

namespace QasmHighlight

open Text

namespace Text

/-- The text is empty or begins with a character that ends any numeral, name or
operator before it. -/
def Separated (text : List Char) : Prop :=
  ∀ c, text.head? = some c → isBlank c = true ∨ c = '/'

theorem separated_afterContent (text : List Char) : Separated (afterContent text) := by
  intro c hc
  exact .inl (isBlank_of_isBreak (afterContent_head?_isBreak hc))

theorem Separated.head_ne {c d : Char} {rest : List Char} (hseparated : Separated (c :: rest))
    (hd : isBlank d = false) (hslash : d ≠ '/') : c ≠ d := by
  rintro rfl
  rcases hseparated c rfl with hblank | heq
  · rw [hd] at hblank
    contradiction
  · exact hslash heq

def blankCodes : List Nat :=
  blankRanges.flatMap fun range => List.range' range.1 (range.2 - range.1 + 1)

private theorem toNat_mem_blankCodes {c : Char} (hc : isBlank c = true) : c.toNat ∈ blankCodes := by
  have hsorted : CodeRanges.Sorted blankRanges := by
    unfold CodeRanges.Sorted
    decide
  obtain ⟨range, hrange, hlow, hhigh⟩ := (CodeRanges.contains_iff hsorted c.toNat).1 hc
  unfold blankCodes
  rw [List.mem_flatMap]
  refine ⟨range, hrange, ?_⟩
  rw [List.mem_range'_1]
  omega

private theorem eq_false_of_isBlank {accept : Char → Bool}
    (hcodes : ∀ code ∈ blankCodes, accept (Char.ofNat code) = false)
    {c : Char} (hc : isBlank c = true) : accept c = false := by
  have hcode := hcodes c.toNat (toNat_mem_blankCodes hc)
  rwa [Char.ofNat_toNat] at hcode

/-- A class of characters without blanks and slashes. -/
def EndsAtSeparator (accept : Char → Bool) : Prop :=
  (∀ code ∈ blankCodes, accept (Char.ofNat code) = false) ∧ accept '/' = false

theorem EndsAtSeparator.head?_any
    {accept : Char → Bool} (haccept : EndsAtSeparator accept)
    {following : List Char} (hfollowing : Separated following) :
    following.head?.any accept = false := by
  cases following with
  | nil => rfl
  | cons c rest =>
      rcases hfollowing c rfl with hblank | rfl
      · exact eq_false_of_isBlank haccept.1 hblank
      · exact haccept.2

theorem EndsAtSeparator.append_head?_any
    {accept : Char → Bool} (haccept : EndsAtSeparator accept)
    {following : List Char} (hfollowing : Separated following) (text : List Char) :
    (text ++ following).head?.any accept = text.head?.any accept := by
  cases text with
  | nil => exact haccept.head?_any hfollowing
  | cons c rest => rfl

theorem EndsAtSeparator.takeWhile_append
    {accept : Char → Bool} (haccept : EndsAtSeparator accept)
    {following : List Char} (hfollowing : Separated following) (text : List Char) :
    (text ++ following).takeWhile accept = text.takeWhile accept := by
  induction text with
  | nil =>
      have hhead := haccept.head?_any hfollowing
      cases following with
      | nil => rfl
      | cons c rest =>
          have hc : accept c = false := hhead
          simp [hc]
  | cons c rest ih => simp [List.takeWhile_cons, ih]

end Text

/-! ## Numerals -/

namespace Lexeme

theorem endsAtSeparator_isDigit : EndsAtSeparator Char.isDigit := by
  unfold EndsAtSeparator
  decide

theorem endsAtSeparator_startsName : EndsAtSeparator startsName := by
  unfold EndsAtSeparator
  decide

theorem endsAtSeparator_continuesName : EndsAtSeparator continuesName := by
  unfold EndsAtSeparator
  decide

namespace Numeral

theorem endsAtSeparator_inDigits : EndsAtSeparator inDigits := by
  unfold EndsAtSeparator
  decide

private theorem endsAtSeparator_radixDigits (radix : Radix) :
    EndsAtSeparator fun c => radix.isDigit c || c == '_' := by
  unfold EndsAtSeparator
  cases radix <;> decide

private theorem endsAtSeparator_radixDigit (radix : Radix) : EndsAtSeparator radix.isDigit := by
  unfold EndsAtSeparator
  cases radix <;> decide

private theorem endsAtSeparator_ofLetter? :
    EndsAtSeparator fun c => (Radix.ofLetter? c).isSome := by
  unfold EndsAtSeparator
  decide

variable {following : List Char}

theorem radixBody?_append (hfollowing : Separated following) (text : List Char) :
    radixBody? (text ++ following) = radixBody? text := by
  cases text with
  | nil =>
      cases following with
      | nil => rfl
      | cons c rest =>
          have hc : c ≠ '0' := hfollowing.head_ne (by decide) (by decide)
          simp [radixBody?, hc]
  | cons c text =>
      by_cases hc : c = '0'
      · subst hc
        cases text with
        | nil =>
            have hhead := endsAtSeparator_ofLetter?.head?_any hfollowing
            cases following with
            | nil => rfl
            | cons letter rest =>
                have hletter : Radix.ofLetter? letter = none := by simpa using hhead
                simp [radixBody?, hletter]
        | cons letter rest =>
            cases hletter : Radix.ofLetter? letter with
            | none => simp [radixBody?, hletter]
            | some radix =>
                have hdigit := (endsAtSeparator_radixDigit radix).append_head?_any hfollowing rest
                have hdigits := (endsAtSeparator_radixDigits radix).takeWhile_append hfollowing rest
                simp only [List.cons_append, radixBody?, hletter, hdigit, hdigits]
      · simp [radixBody?, hc]

theorem whole_append (hfollowing : Separated following) (text : List Char) :
    whole (text ++ following) = whole text :=
  endsAtSeparator_inDigits.takeWhile_append hfollowing text

theorem pointBelongs_append (hfollowing : Separated following) (rest : List Char) :
    pointBelongs (rest ++ following) = pointBelongs rest := by
  cases rest with
  | cons c more => rfl
  | nil =>
      have hname := endsAtSeparator_startsName.head?_any hfollowing
      cases following with
      | nil => rfl
      | cons c more =>
          have hc : startsName c = false := hname
          have hpoint : c ≠ '.' := hfollowing.head_ne (by decide) (by decide)
          simp [pointBelongs, hc, hpoint]

theorem fraction_append (hfollowing : Separated following) (text : List Char) :
    fraction (text ++ following) = fraction text := by
  cases text with
  | nil =>
      cases following with
      | nil => rfl
      | cons c rest =>
          have hc : c ≠ '.' := hfollowing.head_ne (by decide) (by decide)
          simp [fraction, hc]
  | cons c rest =>
      by_cases hc : c = '.'
      · subst hc
        have hbelongs := pointBelongs_append hfollowing rest
        have hdigits := endsAtSeparator_inDigits.takeWhile_append hfollowing rest
        simp only [List.cons_append, fraction, hbelongs, hdigits]
      · simp [fraction, hc]

theorem sign_append (hfollowing : Separated following) (text : List Char) :
    sign (text ++ following) = sign text := by
  cases text with
  | nil =>
      cases following with
      | nil => rfl
      | cons c rest =>
          have hplus : c ≠ '+' := hfollowing.head_ne (by decide) (by decide)
          have hminus : c ≠ '-' := hfollowing.head_ne (by decide) (by decide)
          simp [sign, hplus, hminus]
  | cons c rest =>
      by_cases hplus : c = '+'
      · simp [sign, hplus]
      · by_cases hminus : c = '-'
        · simp [sign, hminus]
        · simp [sign, hplus, hminus]

private theorem drop_length_append {part text : List Char} (hpart : part <+: text)
    (following : List Char) :
    (text ++ following).drop part.length = text.drop part.length ++ following :=
  List.drop_append_of_le_length hpart.length_le

theorem exponent_append (hfollowing : Separated following) (text : List Char) :
    exponent (text ++ following) = exponent text := by
  cases text with
  | nil =>
      cases following with
      | nil => rfl
      | cons c rest =>
          have hlower : c ≠ 'e' := hfollowing.head_ne (by decide) (by decide)
          have hupper : c ≠ 'E' := hfollowing.head_ne (by decide) (by decide)
          simp [exponent, hlower, hupper]
  | cons mark rest =>
      have hdrop := drop_length_append (isPrefix_sign rest) following
      simp only [List.cons_append, exponent, sign_append hfollowing, hdrop,
        endsAtSeparator_isDigit.append_head?_any hfollowing,
        endsAtSeparator_inDigits.takeWhile_append hfollowing]

theorem decimalBody_append (hfollowing : Separated following) (text : List Char) :
    decimalBody (text ++ following) = decimalBody text := by
  simp only [decimalBody, whole_append hfollowing,
    drop_length_append (isPrefix_whole text), fraction_append hfollowing,
    drop_length_append (isPrefix_fraction _), exponent_append hfollowing]

theorem body_append (hfollowing : Separated following) (text : List Char) :
    body (text ++ following) = body text := by
  unfold body
  rw [radixBody?_append hfollowing, decimalBody_append hfollowing]

theorem read_append (hfollowing : Separated following) (text : List Char) :
    read (text ++ following) = read text := by
  have hsuffix : ∀ rest, suffix (rest ++ following) = suffix rest := by
    intro rest
    simp only [suffix, endsAtSeparator_continuesName.takeWhile_append hfollowing]
  unfold read
  rw [body_append hfollowing, drop_length_append (isPrefix_body text), hsuffix]

theorem begins_append (hfollowing : Separated following) (c : Char) (rest : List Char) :
    begins c (rest ++ following) = begins c rest := by
  unfold begins
  rw [endsAtSeparator_isDigit.append_head?_any hfollowing]

end Numeral

/-! ## Operators -/

private theorem isPrefixOf_append_of_separated
    {following : List Char} (hfollowing : Separated following)
    {part : List Char} (hpart : ∀ d ∈ part, isBlank d = false ∧ d ≠ '/') (text : List Char) :
    part.isPrefixOf (text ++ following) = part.isPrefixOf text := by
  induction part generalizing text with
  | nil => simp
  | cons d part ih =>
      have hrest : ∀ e ∈ part, isBlank e = false ∧ e ≠ '/' := by
        intro e he
        exact hpart e (List.mem_cons_of_mem d he)
      cases text with
      | cons c text => simp only [List.cons_append, List.isPrefixOf, ih hrest]
      | nil =>
          cases following with
          | nil => rfl
          | cons c more =>
              obtain ⟨hblank, hslash⟩ := hpart d List.mem_cons_self
              have hne : c ≠ d := hfollowing.head_ne hblank hslash
              simp [List.isPrefixOf, hne.symm]

private theorem operators_tail_not_separator :
    ∀ op ∈ operators, ∀ d ∈ op.tail, isBlank d = false ∧ d ≠ '/' := by
  have hall : (operators.all fun op => op.tail.all fun d => !isBlank d && d != '/') = true := by
    decide
  simpa using hall

theorem leadingOperator?_append
    {following : List Char} (hfollowing : Separated following) (c : Char) (rest : List Char) :
    leadingOperator? (c :: (rest ++ following)) = leadingOperator? (c :: rest) := by
  unfold leadingOperator?
  rw [← List.head?_filter, ← List.head?_filter]
  congr 1
  apply List.filter_congr
  intro op hop
  have htail := operators_tail_not_separator op hop
  cases op with
  | nil => simp
  | cons d part =>
      have hpart := isPrefixOf_append_of_separated hfollowing htail rest
      rw [List.tail_cons] at hpart
      simp only [List.isPrefixOf, hpart]

end Lexeme
end QasmHighlight
