import QasmHighlight.Proofs.Token.Placement

/-!
# Limits

The limits decide whether a text is tokenized and nothing else.  The scan counts
as it goes and gives up in the middle of a text, and a block comment may bring any
number of lexemes at once; yet what it decides is a test on the number of lexemes
that a scan of the whole text finds.  Within the limits a text has the tokens and
diagnostics that it has without any, so larger limits keep every outcome but a
refusal.
-/

namespace QasmHighlight

/-- The tokens and diagnostics of a text of any size. -/
def tokenizeAll (source : String) : Tokenized :=
  ⟨classify (scan source.toList).lexemes, (scan source.toList).diagnostics⟩

theorem tokenize_eq (limits : Limits) (source : String) :
    tokenize limits source =
      if limits.maxBytes < source.utf8ByteSize then
        .error (.tooLarge source.utf8ByteSize limits.maxBytes)
      else if limits.maxTokens < (scan source.toList).lexemes.length then
        .error (.tooManyTokens limits.maxTokens)
      else .ok (tokenizeAll source) := by
  unfold tokenize
  rw [scanWithin_eq]
  by_cases hcount : limits.maxTokens < (scan source.toList).lexemes.length
  · simp only [hcount, if_true]
  · simp only [hcount, if_false, tokenizeAll]

theorem tokenize_eq_tooLarge_iff {limits : Limits} {source : String} {bytes limit : Nat} :
    tokenize limits source = .error (.tooLarge bytes limit) ↔
      limits.maxBytes < source.utf8ByteSize ∧
        bytes = source.utf8ByteSize ∧ limit = limits.maxBytes := by
  rw [tokenize_eq]
  split
  · next hlarge =>
    simp only [Except.error.injEq, Refusal.tooLarge.injEq, hlarge, true_and]
    exact and_congr eq_comm eq_comm
  · next hsmall =>
    split
    · simp [hsmall]
    · simp [hsmall]

theorem tokenize_eq_tooManyTokens_iff {limits : Limits} {source : String} {limit : Nat} :
    tokenize limits source = .error (.tooManyTokens limit) ↔
      source.utf8ByteSize ≤ limits.maxBytes ∧
        limits.maxTokens < (scan source.toList).lexemes.length ∧ limit = limits.maxTokens := by
  rw [tokenize_eq]
  split
  · next hlarge => simp [Nat.not_le.2 hlarge]
  · next hsmall =>
    have hbytes := Nat.not_lt.1 hsmall
    split
    · next hmany =>
      simp only [Except.error.injEq, Refusal.tooManyTokens.injEq, hbytes, hmany, true_and]
      exact eq_comm
    · next hfew => simp [hfew]

theorem tokenize_eq_ok_of_larger {limits larger : Limits} {source : String} {found : Tokenized}
    (hbytes : limits.maxBytes ≤ larger.maxBytes) (hcount : limits.maxTokens ≤ larger.maxTokens)
    (haccepted : tokenize limits source = .ok found) : tokenize larger source = .ok found := by
  obtain ⟨hsize, hlexemes, hfound⟩ := tokenize_eq_ok_iff.1 haccepted
  exact tokenize_eq_ok_iff.2 ⟨hsize.trans hbytes, hlexemes.trans hcount, hfound⟩

/-- A text is refused as too large exactly if it has more bytes than the limit.
Any other text is refused for its tokens exactly if there are more of them than the
limit, and has otherwise the tokens and diagnostics that it has without limits.
Larger limits therefore never turn a text away that was accepted, nor change what
was found in it. -/
theorem tokenize_limits_exact (limits : Limits) (source : String) :
    (∀ bytes limit, tokenize limits source = .error (.tooLarge bytes limit) ↔
      limits.maxBytes < source.utf8ByteSize ∧
        bytes = source.utf8ByteSize ∧ limit = limits.maxBytes) ∧
    (∀ limit, tokenize limits source = .error (.tooManyTokens limit) ↔
      source.utf8ByteSize ≤ limits.maxBytes ∧
        limits.maxTokens < (scan source.toList).lexemes.length ∧ limit = limits.maxTokens) ∧
    (∀ found, tokenize limits source = .ok found ↔
      source.utf8ByteSize ≤ limits.maxBytes ∧
        (scan source.toList).lexemes.length ≤ limits.maxTokens ∧ found = tokenizeAll source) ∧
    (∀ (larger : Limits) (found : Tokenized),
      limits.maxBytes ≤ larger.maxBytes → limits.maxTokens ≤ larger.maxTokens →
        tokenize limits source = .ok found → tokenize larger source = .ok found) := by
  refine ⟨?_, ?_, ?_, ?_⟩
  · exact fun _ _ => tokenize_eq_tooLarge_iff
  · exact fun _ => tokenize_eq_tooManyTokens_iff
  · exact fun _ => tokenize_eq_ok_iff
  · exact fun _ _ => tokenize_eq_ok_of_larger

/-- A comment over three lines, one of them empty, and a word: the scan finds both
lexemes of the comment at once. -/
theorem tokenize_limits_exact_comment :
    tokenize ⟨8, 2⟩ "/*a\n\nb*/x" = .error (.tooLarge 9 8) ∧
    tokenize ⟨9, 2⟩ "/*a\n\nb*/x" = .error (.tooManyTokens 2) ∧
    tokenize ⟨9, 3⟩ "/*a\n\nb*/x" = .ok (tokenizeAll "/*a\n\nb*/x") ∧
    tokenize ⟨10, 3⟩ "/*a\n\nb*/x" = .ok (tokenizeAll "/*a\n\nb*/x") := by
  have hsize : "/*a\n\nb*/x".utf8ByteSize = 9 := by decide
  have hcount : (scan "/*a\n\nb*/x".toList).lexemes.length = 3 := by decide +kernel
  obtain ⟨htooLarge, _⟩ := tokenize_limits_exact ⟨8, 2⟩ "/*a\n\nb*/x"
  obtain ⟨_, htooMany, _⟩ := tokenize_limits_exact ⟨9, 2⟩ "/*a\n\nb*/x"
  obtain ⟨_, _, haccepted, hlarger⟩ := tokenize_limits_exact ⟨9, 3⟩ "/*a\n\nb*/x"
  have hfound := (haccepted _).2 ⟨Nat.le_of_eq hsize, Nat.le_of_eq hcount, rfl⟩
  refine ⟨?_, ?_, hfound, ?_⟩
  · exact (htooLarge 9 8).2 ⟨by rw [hsize]; decide, hsize.symm, rfl⟩
  · exact (htooMany 2).2 ⟨Nat.le_of_eq hsize, by rw [hcount]; decide, rfl⟩
  · exact hlarger ⟨10, 3⟩ _ (by decide) (by decide) hfound

end QasmHighlight
