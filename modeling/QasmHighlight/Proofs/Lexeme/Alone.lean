import QasmHighlight.Proofs.Lexeme.Locality

/-!
# Lexemes read on their own

What follows a lexeme decides where it ends: a numeral gives up its point before a
name, a unit is a unit only if no more of a name follows, an operator is the
longest one that fits.  Read on its own, with nothing after it, the lexeme is
still the same.  Every reader but two gives the same answer on each stretch of a
text that holds what it found; a point is dropped only where nothing of the
numeral follows it, and a unit is read as a whole or not at all.
-/

namespace QasmHighlight

open Text

namespace Text

theorem head?_any_of_isPrefix {part text : List Char} (hpart : part <+: text)
    {accept : Char → Bool} (hhead : part.head?.any accept = true) :
    text.head?.any accept = true := by
  obtain ⟨rest, rfl⟩ := hpart
  cases part with
  | nil => cases hhead
  | cons c more => exact hhead

private theorem head?_eq_some_of_isPrefix {part text : List Char} (hpart : part <+: text)
    {c : Char} (hhead : part.head? = some c) : text.head? = some c := by
  obtain ⟨rest, rfl⟩ := hpart
  rw [List.head?_append, hhead, Option.some_or]

private theorem head?_any_takeWhile {accept wanted : Char → Bool}
    (hwanted : ∀ c, wanted c = true → accept c = true)
    {text : List Char} (hhead : text.head?.any wanted = true) :
    (text.takeWhile accept).head?.any wanted = true := by
  cases text with
  | nil => cases hhead
  | cons c rest =>
      have hc : wanted c = true := hhead
      rw [List.takeWhile_cons_of_pos (hwanted c hc)]
      exact hc

theorem takeWhile_of_isPrefix {accept : Char → Bool} {part text : List Char}
    (htaken : text.takeWhile accept <+: part) (hpart : part <+: text) :
    part.takeWhile accept = text.takeWhile accept := by
  obtain ⟨more, rfl⟩ := htaken
  have hmore : more <+: text.dropWhile accept := by
    rw [← List.prefix_append_right_inj (text.takeWhile accept), List.takeWhile_append_dropWhile]
    exact hpart
  have hstop : more.takeWhile accept = [] := by
    cases more with
    | nil => rfl
    | cons c later =>
        have hhead := head?_eq_some_of_isPrefix hmore rfl
        have hnot := not_accepted_of_head?_dropWhile hhead
        exact List.takeWhile_cons_of_neg (by simp [hnot])
  rw [List.takeWhile_append_of_pos fun c hc => List.mem_takeWhile_imp hc, hstop, List.append_nil]

end Text

namespace Lexeme

/-! ## Numerals -/

namespace Numeral

variable {part text : List Char}

theorem radixBody?_of_isPrefix {found : List Char} (hfound : radixBody? text = some found)
    (htaken : found <+: part) (hpart : part <+: text) : radixBody? part = some found := by
  unfold radixBody? at hfound
  split at hfound
  · next letter rest =>
    cases hletter : Radix.ofLetter? letter with
    | none => simp [hletter] at hfound
    | some radix =>
        simp only [hletter] at hfound
        split at hfound
        · next hdigit =>
          cases hfound
          obtain ⟨more, rfl⟩ := htaken
          simp only [List.cons_append, List.cons_prefix_cons, true_and] at hpart
          have hdigits := takeWhile_of_isPrefix (List.prefix_append _ more) hpart
          have hhead : (rest.takeWhile (fun c => radix.isDigit c || c == '_') ++ more).head?.any
              radix.isDigit = true := by
            refine head?_any_of_isPrefix (List.prefix_append _ more) (head?_any_takeWhile ?_ hdigit)
            intro c hc
            simp [hc]
          simp only [List.cons_append, radixBody?, hletter, hhead, hdigits, if_true]
        · cases hfound
  · cases hfound

theorem radixBody?_eq_none_of_isPrefix (hnone : radixBody? text = none) (hpart : part <+: text) :
    radixBody? part = none := by
  cases hfound : radixBody? part with
  | none => rfl
  | some found =>
      exfalso
      unfold radixBody? at hfound
      split at hfound
      · next letter rest =>
        obtain ⟨following, rfl⟩ := hpart
        cases hletter : Radix.ofLetter? letter with
        | none => simp [hletter] at hfound
        | some radix =>
            simp only [hletter] at hfound
            split at hfound
            · next hdigit =>
              have hhead := head?_any_of_isPrefix (List.prefix_append rest following) hdigit
              simp only [List.cons_append, radixBody?, hletter, hhead, if_true] at hnone
              cases hnone
            · cases hfound
      · cases hfound

private theorem inDigits_of_isDigit (c : Char) (hc : c.isDigit = true) : inDigits c = true := by
  simp [inDigits, hc]

theorem whole_of_isPrefix (htaken : whole text <+: part) (hpart : part <+: text) :
    whole part = whole text :=
  takeWhile_of_isPrefix htaken hpart

theorem pointBelongs_of_isPrefix (hbelongs : pointBelongs text = true) (hpart : part <+: text) :
    pointBelongs part = true := by
  obtain ⟨rest, rfl⟩ := hpart
  cases part with
  | nil => rfl
  | cons c more => exact hbelongs

/-- A stretch that holds the fraction has the same fraction, unless it is a point
that the text does not count as one of the numeral. -/
theorem fraction_of_isPrefix (htaken : fraction text <+: part) (hpart : part <+: text)
    (hpoint : fraction text = [] → part.head? ≠ some '.') : fraction part = fraction text := by
  cases hfound : fraction text with
  | nil =>
      have hnot := hpoint hfound
      cases part with
      | nil => rfl
      | cons c more =>
          have hc : c ≠ '.' := by simpa using hnot
          simp [fraction, hc]
  | cons c digits =>
      unfold fraction at hfound
      split at hfound
      · next rest =>
        split at hfound
        · next hbelongs =>
          cases hfound
          rw [fraction, if_pos hbelongs] at htaken
          obtain ⟨more, rfl⟩ := htaken
          simp only [List.cons_append, List.cons_prefix_cons, true_and] at hpart
          have hdigits := takeWhile_of_isPrefix (List.prefix_append _ more) hpart
          rw [List.cons_append, fraction, if_pos (pointBelongs_of_isPrefix hbelongs hpart), hdigits]
        · cases hfound
      · cases hfound

theorem sign_of_isPrefix (hne : part ≠ []) (hpart : part <+: text) : sign part = sign text := by
  obtain ⟨rest, rfl⟩ := hpart
  obtain ⟨c, more, rfl⟩ := List.exists_cons_of_ne_nil hne
  by_cases hplus : c = '+'
  · simp [sign, hplus]
  · by_cases hminus : c = '-'
    · simp [sign, hminus]
    · simp [sign, hplus, hminus]

private theorem exponent_cons (mark : Char) (rest : List Char) :
    exponent (mark :: rest) =
      if (mark == 'e' || mark == 'E') && (rest.drop (sign rest).length).head?.any Char.isDigit then
        mark :: (sign rest ++ (rest.drop (sign rest).length).takeWhile inDigits)
      else [] := rfl

private theorem drop_sign_of_isPrefix (hne : part ≠ []) (hpart : part <+: text) :
    part.drop (sign part).length <+: text.drop (sign text).length := by
  rw [sign_of_isPrefix hne hpart]
  exact hpart.drop _

theorem exponent_of_isPrefix (htaken : exponent text <+: part) (hpart : part <+: text) :
    exponent part = exponent text := by
  cases part with
  | nil =>
      rw [List.prefix_nil.1 htaken]
      rfl
  | cons mark part =>
      obtain ⟨following, rfl⟩ := hpart
      have hpart : part <+: part ++ following := List.prefix_append part following
      have hne : ∀ {count : Nat}, (part.drop count).head?.any Char.isDigit = true → part ≠ [] := by
        rintro count hdigit rfl
        rw [List.drop_nil] at hdigit
        cases hdigit
      rw [List.cons_append] at htaken ⊢
      rw [exponent_cons] at htaken ⊢
      rw [exponent_cons]
      by_cases hexponent : ((mark == 'e' || mark == 'E') &&
          ((part ++ following).drop (sign (part ++ following)).length).head?.any
            Char.isDigit) = true
      · rw [if_pos hexponent, List.cons_prefix_cons] at htaken
        obtain ⟨hmark, hdigit⟩ := Bool.and_eq_true_iff.1 hexponent
        have hdigits := htaken.2.drop (sign (part ++ following)).length
        rw [List.drop_left] at hdigits
        have hdigit' := head?_any_of_isPrefix hdigits
          (head?_any_takeWhile inDigits_of_isDigit hdigit)
        have hrest := drop_sign_of_isPrefix (hne hdigit') hpart
        rw [sign_of_isPrefix (hne hdigit') hpart] at hrest ⊢
        rw [if_pos hexponent, if_pos (Bool.and_eq_true_iff.2 ⟨hmark, hdigit'⟩),
          takeWhile_of_isPrefix hdigits hrest]
      · rw [if_neg hexponent, if_neg]
        intro hexponent'
        obtain ⟨hmark, hdigit⟩ := Bool.and_eq_true_iff.1 hexponent'
        have hrest := drop_sign_of_isPrefix (hne hdigit) hpart
        exact hexponent (Bool.and_eq_true_iff.2 ⟨hmark, head?_any_of_isPrefix hrest hdigit⟩)

theorem suffix_suffix (text : List Char) : suffix (suffix text) = suffix text := by
  unfold suffix
  dsimp only
  split
  · next hunit => rw [List.takeWhile_idem, if_pos hunit]
  · exact ite_self []

private theorem head?_exponent_ne_point (text : List Char) : (exponent text).head? ≠ some '.' := by
  cases text with
  | nil => exact Option.some_ne_none '.' |>.symm
  | cons mark rest =>
      rw [exponent_cons]
      split
      · next hexponent =>
        rintro hmark
        cases hmark
        cases hexponent
      · exact Option.some_ne_none '.' |>.symm

private theorem head?_suffix_ne_point (text : List Char) : (suffix text).head? ≠ some '.' := by
  intro hhead
  unfold suffix at hhead
  dsimp only at hhead
  split at hhead
  · have hname := List.mem_takeWhile_imp (List.mem_of_head? hhead)
    exact absurd hname (by decide)
  · cases hhead

theorem decimalBody_of_isPrefix (htaken : decimalBody text <+: part) (hpart : part <+: text)
    (hpoint : fraction (text.drop (whole text).length) = [] →
      (part.drop (whole text).length).head? ≠ some '.') :
    decimalBody part = decimalBody text := by
  unfold decimalBody at htaken
  rw [List.append_assoc] at htaken
  have hwhole := whole_of_isPrefix ((List.prefix_append _ _).trans htaken) hpart
  have hrest := hpart.drop (whole text).length
  have htaken' := htaken.drop (whole text).length
  rw [List.drop_left] at htaken'
  have hfraction := fraction_of_isPrefix ((List.prefix_append _ _).trans htaken') hrest hpoint
  have hrest' := hrest.drop (fraction (text.drop (whole text).length)).length
  have htaken'' := htaken'.drop (fraction (text.drop (whole text).length)).length
  rw [List.drop_left] at htaken''
  have hexponent := exponent_of_isPrefix htaken'' hrest'
  simp only [decimalBody, hwhole, hfraction, hexponent]

theorem body_read (text : List Char) : body (read text) = body text := by
  have hread := isPrefix_read text
  cases hradix : radixBody? text with
  | some found =>
      have hbody : body text = found := by rw [body, hradix, Option.getD_some]
      have htaken : found <+: read text := by
        rw [← hbody]
        exact List.prefix_append _ _
      rw [hbody, body, radixBody?_of_isPrefix hradix htaken hread, Option.getD_some]
  | none =>
      have hbody : body text = decimalBody text := by rw [body, hradix, Option.getD_none]
      have htaken : decimalBody text <+: read text := by
        rw [← hbody]
        exact List.prefix_append _ _
      rw [hbody, body, radixBody?_eq_none_of_isPrefix hradix hread, Option.getD_none]
      refine decimalBody_of_isPrefix htaken hread ?_
      intro hnone
      rw [read, hbody, decimalBody, hnone, List.append_nil, List.append_assoc, List.drop_left,
        List.head?_append]
      cases hhead : (exponent (List.drop [].length (text.drop (whole text).length))).head? with
      | none => exact head?_suffix_ne_point _
      | some c =>
          rw [Option.some_or, ← hhead]
          exact head?_exponent_ne_point _

/-- A numeral on its own is read whole. -/
theorem read_read (text : List Char) : read (read text) = read text := by
  have hbody := body_read text
  unfold read at hbody ⊢
  rw [hbody, List.drop_left, suffix_suffix]

theorem begins_of_read {c : Char} {rest inside : List Char} (hbegins : begins c rest = true)
    (hread : read (c :: rest) = c :: inside) : begins c inside = true := by
  by_cases hdigit : c.isDigit = true
  · simp [begins, hdigit]
  · simp only [begins, hdigit, Bool.false_or, Bool.and_eq_true, beq_iff_eq] at hbegins ⊢
    obtain ⟨rfl, hnext⟩ := hbegins
    refine ⟨rfl, ?_⟩
    obtain ⟨d, more, rfl⟩ : ∃ d more, rest = d :: more := by
      cases rest with
      | nil => cases hnext
      | cons d more => exact ⟨d, more, rfl⟩
    have hd : d.isDigit = true := hnext
    have hfraction : fraction ('.' :: d :: more) = '.' :: d :: more.takeWhile inDigits := by
      simp [fraction, pointBelongs, inDigits, hd]
    have hwhole : whole ('.' :: d :: more) = [] := by
      simp [whole, inDigits, hdigit]
    have hradix : radixBody? ('.' :: d :: more) = none := rfl
    simp only [read, body, hradix, Option.getD_none, decimalBody, hwhole, List.length_nil,
      List.drop_zero, hfraction, List.nil_append, List.cons_append, List.cons.injEq, true_and]
      at hread
    rw [← hread]
    exact hd

end Numeral

/-! ## Operators -/

/-- On a stretch of a text no operator fits that does not fit on the text. -/
theorem leadingOperator?_of_isPrefix {part text : List Char} (hpart : part <+: text)
    {found : Option (List Char)} (hfound : leadingOperator? text = found)
    (htaken : ∀ op, found = some op → op <+: part) : leadingOperator? part = found := by
  unfold leadingOperator? at hfound ⊢
  have hfits : ∀ op : List Char, op.isPrefixOf part = true → op.isPrefixOf text = true := by
    intro op hop
    rw [List.isPrefixOf_iff_prefix] at hop ⊢
    exact hop.trans hpart
  cases found with
  | none =>
      rw [List.find?_eq_none] at hfound ⊢
      exact fun op hop hop' => hfound op hop (hfits op hop')
  | some op =>
      rw [List.find?_eq_some_iff_append] at hfound ⊢
      obtain ⟨_, before, after, hoperators, hbefore⟩ := hfound
      refine ⟨List.isPrefixOf_iff_prefix.2 (htaken op rfl), before, after, hoperators, ?_⟩
      intro earlier hearlier
      have hnot := hbefore earlier hearlier
      rw [Bool.not_eq_true', ← Bool.not_eq_true] at hnot ⊢
      exact fun hfit => hnot (hfits earlier hfit)

end Lexeme

/-! ## The first piece -/

namespace Piece

open Lexeme

variable {c : Char} {rest inside : List Char} {kind : LexemeKind}

theorem ofString_alone (hpiece : ofString rest = .lexeme kind ('"' :: inside)) :
    ofString inside = .lexeme kind ('"' :: inside) := by
  unfold ofString at hpiece
  cases hquote : closingQuote? 0 rest with
  | some count =>
      simp only [hquote, lexeme.injEq, List.cons.injEq, true_and] at hpiece
      obtain ⟨rfl, rfl⟩ := hpiece
      have hbounds := closingQuote?_bounds hquote
      have hlength : (rest.take count).length = count := by
        rw [List.length_take]
        omega
      have hquote' : closingQuote? 0 (rest.take count) = some count := by
        rw [← closingQuote?_append_iff (by omega) (rest.drop count), List.take_append_drop]
        exact hquote
      simp only [ofString, hquote', List.take_take, Nat.min_self]
  | none =>
      simp only [hquote, lexeme.injEq, List.cons.injEq, true_and] at hpiece
      obtain ⟨rfl, rfl⟩ := hpiece
      simp only [ofString, closingQuote?_lineContent, hquote, lineContent_lineContent]

theorem ofSymbol_alone (hpiece : ofSymbol c rest = .lexeme kind (c :: inside))
    (hinside : inside <+: rest) : ofSymbol c inside = .lexeme kind (c :: inside) := by
  have hpart : c :: inside <+: c :: rest := List.cons_prefix_cons.2 ⟨rfl, hinside⟩
  unfold ofSymbol at hpiece ⊢
  cases hoperator : leadingOperator? (c :: rest) with
  | some found =>
      simp only [hoperator, lexeme.injEq] at hpiece
      obtain ⟨rfl, rfl⟩ := hpiece
      have halone := leadingOperator?_of_isPrefix hpart hoperator (by rintro op ⟨⟩; rfl)
      rw [halone]
  | none =>
      have halone := leadingOperator?_of_isPrefix hpart hoperator (by rintro op ⟨⟩)
      rw [halone]
      cases hmark : Punctuation.ofChar? c with
      | none => simp [hoperator, hmark] at hpiece
      | some mark =>
          simp only [hoperator, hmark, lexeme.injEq, List.cons.injEq, true_and] at hpiece
          obtain ⟨rfl, rfl⟩ := hpiece
          rfl

private theorem begins_of_isPrefix (hinside : inside <+: rest)
    (hbegins : Numeral.begins c inside = true) : Numeral.begins c rest = true := by
  unfold Numeral.begins at hbegins ⊢
  rw [Bool.or_eq_true, Bool.and_eq_true] at hbegins ⊢
  exact hbegins.imp_right fun hpoint => ⟨hpoint.1, head?_any_of_isPrefix hinside hpoint.2⟩

theorem first_alone_of_opensComment (hopens : OpensComment c rest)
    (hfirst : first c rest = .lexeme kind (c :: inside)) :
    first c inside = .lexeme kind (c :: inside) := by
  obtain ⟨rfl, hhead | hhead⟩ := hopens
  · obtain ⟨more, rfl⟩ := List.head?_eq_some_iff.1 hhead
    have hline : first '/' ('/' :: more) = .lexeme .comment ('/' :: lineContent ('/' :: more)) :=
      rfl
    have hblock : ¬ ('/' = '/' ∧ ('/' :: more).head? = some '*') := by simp
    have halone := first_lineContent hblock
    rw [hline] at hfirst
    simp only [lexeme.injEq, List.cons.injEq, true_and] at hfirst
    obtain ⟨rfl, rfl⟩ := hfirst
    rw [halone, hline]
  · obtain ⟨more, rfl⟩ := List.head?_eq_some_iff.1 hhead
    rw [first_slash_star, ofComment] at hfirst
    split at hfirst <;> cases hfirst

/-- A lexeme on its own is read as the same lexeme.  With less text after it, `c`
begins nothing that it does not begin before `rest`. -/
theorem first_alone (hfirst : first c rest = .lexeme kind (c :: inside)) :
    first c inside = .lexeme kind (c :: inside) := by
  have hinside : inside <+: rest := by
    have hprefix := isPrefix_first c rest
    rw [hfirst] at hprefix
    exact (List.cons_prefix_cons.1 hprefix).2
  by_cases hopens : OpensComment c rest
  · exact first_alone_of_opensComment hopens hfirst
  · have hopens' : ¬ OpensComment c inside := by
      obtain ⟨following, rfl⟩ := hinside
      exact fun h => hopens (h.append following)
    rw [first_eq_of_not_opensComment hopens] at hfirst
    rw [first_eq_of_not_opensComment hopens']
    split_ifs at hfirst with hblank hquote hnumeral hqubit hname
    · subst hquote
      rw [if_neg hblank, if_pos rfl]
      exact ofString_alone hfirst
    · simp only [lexeme.injEq] at hfirst
      obtain ⟨rfl, hread⟩ := hfirst
      have hbegins := Numeral.begins_of_read hnumeral hread
      rw [if_neg hblank, if_neg hquote, if_pos hbegins, ← hread, Numeral.read_read]
    all_goals
      rw [if_neg hblank, if_neg hquote, if_neg fun h => hnumeral (begins_of_isPrefix hinside h)]
    · simp only [lexeme.injEq, List.cons.injEq, true_and] at hfirst
      obtain ⟨rfl, rfl⟩ := hfirst
      have hdigit := head?_any_takeWhile (fun d hd => hd) hqubit.2
      rw [if_pos ⟨hqubit.1, hdigit⟩, List.takeWhile_idem]
    all_goals
      rw [if_neg fun h => hqubit ⟨h.1, head?_any_of_isPrefix hinside h.2⟩]
    · simp only [lexeme.injEq, List.cons.injEq, true_and] at hfirst
      obtain ⟨rfl, rfl⟩ := hfirst
      have hname' := hname.imp_left fun hdirective =>
        And.intro hdirective.1
          (head?_any_takeWhile (fun d hd => continuesName_of_startsName hd) hdirective.2)
      rw [if_pos hname', List.takeWhile_idem]
    · rw [if_neg fun h => hname (h.imp_left fun h => ⟨h.1, head?_any_of_isPrefix hinside h.2⟩)]
      exact ofSymbol_alone hfirst hinside

end Piece
end QasmHighlight
