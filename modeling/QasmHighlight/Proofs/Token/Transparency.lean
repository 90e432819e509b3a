import QasmHighlight.Proofs.Lexeme.LineEnding
import QasmHighlight.Proofs.Lexeme.Overwriting
import QasmHighlight.Proofs.Token.Context
import QasmHighlight.Proofs.Token.Placement
import QasmHighlight.Wire.Encoding

/-!
# What the tokens of a text do not depend on

Two changes of a text leave its tokens where and what they are.  Overwriting the
comments with spaces takes away the comment tokens and nothing else, and writing
every line break as an LF takes away nothing at all.  Neither makes a text larger,
so a text that is accepted stays so.
-/

namespace QasmHighlight

open Text

/-! ## Comments -/

/-- Whether a position lies on one of the comments among tokens. -/
def inComment (tokens : List Token) (p : Position) : Bool :=
  tokens.any fun token =>
    token.tokenClass = .comment && token.position.covers token.length p

/-- The source with the characters of its comment tokens overwritten by spaces. -/
def Tokenized.overwriteComments (found : Tokenized) (source : String) : String :=
  String.ofList (blankWhere (inComment found.tokens) source.toList)

private theorem inComment_zipWith_classesFrom
    (context : Context) (lexemes : List Lexeme) (p : Position) :
    inComment (List.zipWith Lexeme.toToken lexemes (classesFrom context lexemes)) p =
      Lexeme.commentAt lexemes p := by
  induction lexemes generalizing context with
  | nil => rfl
  | cons lexeme rest ih =>
      have hclass : decide ((context.step lexeme (headsCall rest)).1 = .comment) =
          lexeme.isComment := by
        rw [Bool.eq_iff_iff, decide_eq_true_iff]
        exact context.step_class_eq_comment_iff lexeme (headsCall rest)
      have hrest := ih (context.step lexeme (headsCall rest)).2
      unfold inComment Lexeme.commentAt at hrest ⊢
      rw [classesFrom, List.zipWith_cons_cons, List.any_cons, List.any_cons, hrest, ← hclass]
      rfl

theorem inComment_classify (lexemes : List Lexeme) :
    inComment (classify lexemes) = Lexeme.commentAt lexemes := by
  funext p
  rw [classify_eq_zipWith, inComment_zipWith_classesFrom]

theorem scan_overwritten (source : List Char) :
    scan (blankWhere (inComment (classify (scan source).lexemes)) source) =
      ⟨(scan source).lexemes.filter Lexeme.isSignificant,
        (scan source).diagnostics.filter (·.problem ≠ .unterminatedBlockComment)⟩ := by
  rw [inComment_classify, blankWhere_commentAt, scan_blankedFrom]
  rfl

/-- A text whose comments are overwritten by spaces is accepted, and it has all
tokens of the original but the comments and all diagnostics but that of a comment
left open. -/
theorem tokenize_overwriteComments
    {limits : Limits} {source : String} {found : Tokenized}
    (haccepted : tokenize limits source = .ok found) :
    tokenize limits (found.overwriteComments source) =
      .ok ⟨found.tokens.filter (·.tokenClass ≠ .comment),
        found.diagnostics.filter (·.problem ≠ .unterminatedBlockComment)⟩ := by
  obtain ⟨hbytes, hcount, rfl⟩ := tokenize_eq_ok_iff.1 haccepted
  have hscan := scan_overwritten source.toList
  rw [tokenize_eq_ok_iff, ← bytes_toList, Tokenized.overwriteComments, String.toList_ofList]
  dsimp only
  rw [hscan, classify_filter]
  refine ⟨?_, ?_, rfl⟩
  · have hsmaller := bytes_blankWhere_le
      (inComment (classify (scan source.toList).lexemes)) source.toList
    rw [bytes_toList] at hsmaller
    exact hsmaller.trans hbytes
  · exact (List.length_filter_le _ _).trans hcount

/-- Comments between a gate and its operand and right after a numeral, and one
that is left open. -/
theorem tokenize_overwriteComments_between :
    ∃ found, tokenize {} "g/*𝜃*/q;1.//\r\n/*x" = .ok found ∧
      found.overwriteComments "g/*𝜃*/q;1.//\r\n/*x" = "g      q;1.  \r\n   " ∧
      tokenize {} (found.overwriteComments "g/*𝜃*/q;1.//\r\n/*x") =
        .ok ⟨found.tokens.filter (·.tokenClass ≠ .comment),
          found.diagnostics.filter (·.problem ≠ .unterminatedBlockComment)⟩ := by
  have haccepted : tokenize {} "g/*𝜃*/q;1.//\r\n/*x" = .ok
      ⟨[⟨.gate, "g", ⟨1, 0⟩, 1⟩, ⟨.comment, "/*𝜃*/", ⟨1, 1⟩, 6⟩,
        ⟨.identifier, "q", ⟨1, 7⟩, 1⟩, ⟨.punctuation, ";", ⟨1, 8⟩, 1⟩,
        ⟨.number, "1.", ⟨1, 9⟩, 2⟩, ⟨.comment, "//", ⟨1, 11⟩, 2⟩,
        ⟨.comment, "/*x", ⟨2, 0⟩, 3⟩], [⟨.unterminatedBlockComment, ⟨2, 0⟩⟩]⟩ := by
    have hscan : scan "g/*𝜃*/q;1.//\r\n/*x".toList =
        ⟨[⟨.word, "g", ⟨1, 0⟩, 1⟩, ⟨.comment, "/*𝜃*/", ⟨1, 1⟩, 6⟩, ⟨.word, "q", ⟨1, 7⟩, 1⟩,
          ⟨.punctuation .semicolon, ";", ⟨1, 8⟩, 1⟩, ⟨.number, "1.", ⟨1, 9⟩, 2⟩,
          ⟨.comment, "//", ⟨1, 11⟩, 2⟩, ⟨.comment, "/*x", ⟨2, 0⟩, 3⟩],
          [⟨.unterminatedBlockComment, ⟨2, 0⟩⟩]⟩ := by
      decide +kernel
    have hgate : Vocabulary.reservedClass? "g" = none := by decide
    have hregister : Vocabulary.reservedClass? "q" = none := by decide
    rw [tokenize_eq_ok_of_scan (by decide) (by decide) hscan]
    simp [classesFrom, headsCall, Context.step, Context.word, Context.name, Context.punctuation,
      Scopes.contains, Lexeme.isComment, Lexeme.isOperand, Lexeme.toToken, hgate, hregister]
  refine ⟨_, haccepted, ?_, tokenize_overwriteComments haccepted⟩
  decide +kernel

/-! ## Line endings -/

/-- Within the byte limit a text is accepted or refused alike with every line break
written as an LF. -/
theorem tokenize_ofList_withLf
    {limits : Limits} {source : String} (hsize : source.utf8ByteSize ≤ limits.maxBytes) :
    tokenize limits (String.ofList (withLf source.toList)) = tokenize limits source := by
  have hsmaller : (String.ofList (withLf source.toList)).utf8ByteSize ≤ limits.maxBytes := by
    have hle := bytes_withLf_le source.toList
    rw [← bytes_toList, String.toList_ofList]
    rw [bytes_toList] at hle
    exact hle.trans hsize
  unfold tokenize
  rw [if_neg (Nat.not_lt.2 hsmaller), if_neg (Nat.not_lt.2 hsize), String.toList_ofList,
    scanWithin_eq, scanWithin_eq, scan_withLf]

/-- An accepted text is accepted with every line break written as an LF, and has
the same tokens, the same diagnostics and the same wire form. -/
theorem tokenize_lineEnding_independent
    {limits : Limits} {source : String} {found : Tokenized}
    (haccepted : tokenize limits source = .ok found) :
    ∃ normal, tokenize limits (String.ofList (withLf source.toList)) = .ok normal ∧
      normal.tokens = found.tokens ∧ normal.diagnostics = found.diagnostics ∧
      flatten (encode normal.tokens) = flatten (encode found.tokens) := by
  have hsize := (tokenize_eq_ok_iff.1 haccepted).1
  refine ⟨found, ?_, rfl, rfl, rfl⟩
  rw [tokenize_ofList_withLf hsize, haccepted]

/-- An escape before a CR, a CR before a CRLF, and a CR in a comment and at the
end. -/
theorem tokenize_lineEnding_independent_mixed :
    String.ofList (withLf "\"\\\r\r\n/*\r*/1.\r".toList) = "\"\\\n\n/*\n*/1.\n" ∧
    ∃ found normal, tokenize {} "\"\\\r\r\n/*\r*/1.\r" = .ok found ∧
      tokenize {} (String.ofList (withLf "\"\\\r\r\n/*\r*/1.\r".toList)) = .ok normal ∧
      normal.tokens = found.tokens ∧ normal.diagnostics = found.diagnostics ∧
      flatten (encode normal.tokens) = flatten (encode found.tokens) := by
  have haccepted : tokenize {} "\"\\\r\r\n/*\r*/1.\r" = .ok
      ⟨[⟨.string, "\"\\", ⟨1, 0⟩, 2⟩, ⟨.comment, "/*", ⟨3, 0⟩, 2⟩, ⟨.comment, "*/", ⟨4, 0⟩, 2⟩,
        ⟨.number, "1.", ⟨4, 2⟩, 2⟩], [⟨.unterminatedString, ⟨1, 0⟩⟩]⟩ := by
    decide +kernel
  obtain ⟨normal, hnormal⟩ := tokenize_lineEnding_independent haccepted
  exact ⟨by decide, _, normal, haccepted, hnormal⟩

end QasmHighlight
