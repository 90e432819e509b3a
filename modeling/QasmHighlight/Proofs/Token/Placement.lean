import QasmHighlight.Proofs.Lexeme.Cut
import QasmHighlight.Proofs.Token.Lookahead
import QasmHighlight.Token.Tokenize

/-!
# Where tokens stand in their source

Classification gives each lexeme a class and leaves the rest of it as it is, so
the tokens of an accepted text are those of its scan, one for each cut of the
text.  The main statement is that the line, the column and the length of a token
are exact: they are counted from the line breaks before its cut and from the
characters of its content, and no token reaches over a line break.
-/

namespace QasmHighlight

open Text

def Lexeme.Classed (lexeme : Lexeme) (token : Token) : Prop :=
  token = lexeme.toToken token.tokenClass

private theorem Lexeme.classed_toToken (lexeme : Lexeme) (tokenClass : TokenClass) :
    lexeme.Classed (lexeme.toToken tokenClass) := rfl

private theorem Classified.toList_tokens_step
    (found : Classified) (ahead : Lookahead) (lexeme : Lexeme) (place : Nat) :
    ∃ tokenClass, (found.step ahead lexeme place).tokens.toList =
      found.tokens.toList ++ [lexeme.toToken tokenClass] :=
  ⟨_, Array.toList_push⟩

theorem Classified.toList_tokens_foldl
    (ahead : Lookahead) (lexemes : List (Lexeme × Nat)) (found : Classified) :
    ∃ tokens,
      (lexemes.foldl (fun (found : Classified) x => found.step ahead x.1 x.2)
        found).tokens.toList = found.tokens.toList ++ tokens ∧
      List.Forall₂ Lexeme.Classed (lexemes.map Prod.fst) tokens := by
  induction lexemes generalizing found with
  | nil => exact ⟨[], by simp, .nil⟩
  | cons x rest ih =>
      obtain ⟨tokenClass, hstep⟩ := found.toList_tokens_step ahead x.1 x.2
      obtain ⟨tokens, hrun, hclassed⟩ := ih (found.step ahead x.1 x.2)
      refine ⟨x.1.toToken tokenClass :: tokens, ?_, ?_⟩
      · rw [List.foldl_cons, hrun, hstep]
        simp
      · exact .cons (x.1.classed_toToken tokenClass) hclassed

theorem forall₂_classify (lexemes : List Lexeme) :
    List.Forall₂ Lexeme.Classed lexemes (classify lexemes) := by
  obtain ⟨tokens, hrun, hclassed⟩ :=
    Classified.toList_tokens_foldl (Lookahead.ofLexemes lexemes) lexemes.zipIdx {}
  have htokens : classify lexemes = tokens := by
    unfold classify
    rw [hrun]
    rfl
  rw [htokens]
  simpa using hclassed

theorem tokenize_eq_ok_iff {limits : Limits} {source : String} {found : Tokenized} :
    tokenize limits source = .ok found ↔
      source.utf8ByteSize ≤ limits.maxBytes ∧
      (scan source.toList).lexemes.length ≤ limits.maxTokens ∧
      found = ⟨classify (scan source.toList).lexemes, (scan source.toList).diagnostics⟩ := by
  unfold tokenize
  rw [scanWithin_eq]
  by_cases hbytes : limits.maxBytes < source.utf8ByteSize
  · simp only [hbytes, if_true, reduceCtorEq, false_iff]
    rintro ⟨hfits, _⟩
    omega
  · by_cases hcount : limits.maxTokens < (scan source.toList).lexemes.length
    · simp only [hbytes, hcount, if_true, if_false, reduceCtorEq, false_iff]
      rintro ⟨_, hfits, _⟩
      omega
    · simp only [hbytes, hcount, if_false, Except.ok.injEq]
      constructor
      · rintro rfl
        exact ⟨by omega, by omega, rfl⟩
      · rintro ⟨_, _, rfl⟩
        rfl

theorem tokenize_eq_ok_of_scan
    {limits : Limits} {source : String} {lexemes : List Lexeme} {diagnostics : List Diagnostic}
    (hbytes : source.utf8ByteSize ≤ limits.maxBytes) (hcount : lexemes.length ≤ limits.maxTokens)
    (hscan : scan source.toList = ⟨lexemes, diagnostics⟩) :
    tokenize limits source =
      .ok ⟨List.zipWith Lexeme.toToken lexemes (classesFrom {} lexemes), diagnostics⟩ := by
  rw [tokenize_eq_ok_iff, hscan, classify_eq_zipWith]
  exact ⟨hbytes, hcount, rfl⟩

/-- The tokens of an accepted text stand at its cuts. -/
theorem forall₂_cuts_tokens
    {limits : Limits} {source : String} {found : Tokenized}
    (haccepted : tokenize limits source = .ok found) :
    List.Forall₂ (fun cut token => cut.Holds token.content token.position token.length)
      (cuts source.toList) found.tokens := by
  obtain ⟨_, _, rfl⟩ := tokenize_eq_ok_iff.1 haccepted
  have hlexemes := forall₂_cuts source.toList
  have htokens := forall₂_classify (scan source.toList).lexemes
  rw [List.forall₂_iff_get] at hlexemes htokens ⊢
  refine ⟨hlexemes.1.trans htokens.1, ?_⟩
  intro i hcut htoken
  have hlexeme : i < (scan source.toList).lexemes.length := by
    rw [← hlexemes.1]
    exact hcut
  have hclassed := htokens.2 i hlexeme htoken
  unfold Lexeme.Classed at hclassed
  rw [hclassed]
  exact hlexemes.2 i hcut hlexeme

theorem exists_cut_of_token
    {limits : Limits} {source : String} {found : Tokenized}
    (haccepted : tokenize limits source = .ok found)
    {k : Nat} {token : Token} (htoken : found.tokens[k]? = some token) :
    ∃ cut, (cuts source.toList)[k]? = some cut ∧
      cut.Holds token.content token.position token.length :=
  exists_getElem?_of_forall₂ (forall₂_cuts_tokens haccepted) htoken

theorem pairwise_tokens
    {limits : Limits} {source : String} {found : Tokenized}
    (haccepted : tokenize limits source = .ok found) :
    found.tokens.Pairwise fun a b => a.position.EndsBefore a.length b.position := by
  have hcuts := List.forall₂_iff_get.1 (forall₂_cuts_tokens haccepted)
  have hordered := List.pairwise_iff_getElem.1 (pairwise_cuts source.toList)
  rw [List.pairwise_iff_getElem]
  intro i j hi hj hij
  have hiCut : i < (cuts source.toList).length := hcuts.1 ▸ hi
  have hjCut : j < (cuts source.toList).length := hcuts.1 ▸ hj
  exact (hcuts.2 i hiCut hi).endsBefore (hcuts.2 j hjCut hj) (hordered i j hiCut hjCut hij)

/-- The position of a token is that of the place where its content was cut: its
line is counted by the line breaks that end at or before the place, its column
by the UTF-16 units since the last of them.  Its length is that of its content,
which is not empty and has no line break in it. -/
theorem tokenize_position_exact
    {limits : Limits} {source : String} {found : Tokenized}
    (haccepted : tokenize limits source = .ok found)
    {k : Nat} {token : Token} (htoken : found.tokens[k]? = some token) :
    ∃ cut, (cuts source.toList)[k]? = some cut ∧
      token.content.toList = cut.text ∧
      token.position.line =
        1 + Nat.count (fun i => breakEndsAt source.toList i = true) (cut.before.length + 1) ∧
      token.position.column =
        units (cut.before.drop (lineStart source.toList cut.before.length)) ∧
      token.length = units token.content.toList ∧
      0 < token.length ∧
      '\r' ∉ token.content.toList ∧ '\n' ∉ token.content.toList := by
  obtain ⟨cut, hcut, hholds⟩ := exists_cut_of_token haccepted htoken
  have hcontent := hholds.toList_content
  have hbreaks : ∀ c ∈ cut.text, c ≠ '\n' ∧ c ≠ '\r' := by
    intro c hc
    exact isBreak_eq_false_iff.1 (hholds.text_not_isBreak c hc)
  refine ⟨cut, hcut, hcontent, ?_, ?_, ?_, hholds.length_pos, ?_, ?_⟩
  · rw [hholds.position_eq, positionAt]
  · rw [hholds.position_eq, positionAt, cut.take_length_before]
  · rw [hcontent, hholds.length_eq]
  · rw [hcontent]
    intro hcr
    exact (hbreaks '\r' hcr).2 rfl
  · rw [hcontent]
    intro hlf
    exact (hbreaks '\n' hlf).1 rfl

/-- The second line of a comment, after a CRLF and with a surrogate pair in it. -/
theorem tokenize_position_exact_after_crlf :
    ∃ found token cut,
      tokenize {} "/*\r\n𝜃*/y?" = .ok found ∧ found.tokens[1]? = some token ∧
      (cuts "/*\r\n𝜃*/y?".toList)[1]? = some cut ∧
      token.content.toList = cut.text ∧
      token.position.line =
        1 + Nat.count (fun i => breakEndsAt "/*\r\n𝜃*/y?".toList i = true)
          (cut.before.length + 1) ∧
      token.position.column =
        units (cut.before.drop (lineStart "/*\r\n𝜃*/y?".toList cut.before.length)) ∧
      token.length = units token.content.toList ∧
      0 < token.length ∧
      '\r' ∉ token.content.toList ∧ '\n' ∉ token.content.toList := by
  have haccepted : tokenize {} "/*\r\n𝜃*/y?" = .ok
      ⟨[⟨.comment, "/*", ⟨1, 0⟩, 2⟩, ⟨.comment, "𝜃*/", ⟨2, 0⟩, 4⟩,
        ⟨.builtinGate, "y", ⟨2, 4⟩, 1⟩], [⟨.unexpectedCharacter '?', ⟨2, 5⟩⟩]⟩ := by
    decide +kernel
  have htoken : ([⟨.comment, "/*", ⟨1, 0⟩, 2⟩, ⟨.comment, "𝜃*/", ⟨2, 0⟩, 4⟩,
      ⟨.builtinGate, "y", ⟨2, 4⟩, 1⟩] : List Token)[1]? =
        some ⟨.comment, "𝜃*/", ⟨2, 0⟩, 4⟩ := rfl
  obtain ⟨cut, hcut⟩ := tokenize_position_exact haccepted htoken
  exact ⟨_, _, cut, haccepted, htoken, hcut⟩

end QasmHighlight
