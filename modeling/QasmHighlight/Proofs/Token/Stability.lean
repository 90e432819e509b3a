import QasmHighlight.Proofs.Lexeme.LineJoin
import QasmHighlight.Proofs.Lexeme.Stop
import QasmHighlight.Proofs.Token.Context
import QasmHighlight.Proofs.Wire.Fidelity

/-!
# Tokens that later text does not change

Text added below a document whose last statement or block is complete leaves all
of the document's tokens, and what was sent for them, as they are.  The added
text is scanned on its own, and no class of the document is decided by what
comes after its last semicolon or brace.
-/

namespace QasmHighlight

open Text

/-! ## The text of a punctuation mark -/

private theorem Piece.eq_of_first_eq_punctuation
    {c : Char} {rest : List Char} {mark : Punctuation} {chars : List Char}
    (hpiece : first c rest = .lexeme (.punctuation mark) chars) :
    Punctuation.ofChar? c = some mark ∧ chars = [c] := by
  cases reads_of_first_eq hpiece with
  | punctuation _ _ hmark => exact ⟨hmark, rfl⟩

theorem exists_ofChar?_of_mem_scan
    {source : List Char} {lexeme : Lexeme} (hlexeme : lexeme ∈ (scan source).lexemes)
    {mark : Punctuation} (hkind : lexeme.kind = .punctuation mark) :
    ∃ c, Punctuation.ofChar? c = some mark ∧ lexeme.text = String.ofList [c] := by
  obtain ⟨stop, c, rest, chars, _, hfirst, hparts⟩ :=
    Stop.exists_of_mem_lexemes hlexeme (by simp [hkind])
  rw [hkind] at hfirst
  obtain ⟨hchar, rfl⟩ := Piece.eq_of_first_eq_punctuation hfirst
  refine ⟨c, hchar, ?_⟩
  rw [hparts]
  rfl

def boundaryTexts : List String :=
  [";", "\x7b", "\x7d"]

theorem Lexeme.isBoundary_of_text
    {lexeme : Lexeme} {c : Char} {mark : Punctuation}
    (hkind : lexeme.kind = .punctuation mark) (hmark : Punctuation.ofChar? c = some mark)
    (htext : lexeme.text = String.ofList [c]) (hmem : lexeme.text ∈ boundaryTexts) :
    lexeme.isBoundary = true := by
  have hchar : c = ';' ∨ c = '\x7b' ∨ c = '\x7d' := by
    have htexts : boundaryTexts.map String.toList = [[';'], ['\x7b'], ['\x7d']] := by decide
    have hlist := List.mem_map_of_mem (f := String.toList) hmem
    rw [htext, htexts, String.toList_ofList] at hlist
    simpa using hlist
  unfold Lexeme.isBoundary
  rw [hkind]
  rcases hchar with rfl | rfl | rfl <;> cases hmark <;> rfl

/-! ## The last lexeme that is no comment -/

theorem exists_classesFrom_append (context : Context) (before following : List Lexeme) :
    ∃ front, front.length = before.length ∧
      classesFrom context (before ++ following) =
        front ++ classesFrom (contextAfter context following before) following := by
  induction before generalizing context with
  | nil => exact ⟨[], rfl, rfl⟩
  | cons lexeme rest ih =>
      have hstep := ih (context.step lexeme (headsCall (rest ++ following))).2
      obtain ⟨front, hlength, hfront⟩ := hstep
      refine ⟨(context.step lexeme (headsCall (rest ++ following))).1 :: front, ?_, ?_⟩
      · rw [List.length_cons, List.length_cons, hlength]
      · simp only [List.cons_append, classesFrom, contextAfter, hfront]

private theorem getLast?_classify_concat (before : List Lexeme) (lexeme : Lexeme) :
    ∃ context call, (classify (before ++ [lexeme])).getLast? =
      some (lexeme.toToken (Context.step context lexeme call).1) := by
  obtain ⟨front, hlength, hclasses⟩ := exists_classesFrom_append {} before [lexeme]
  refine ⟨contextAfter {} [lexeme] before, headsCall [], ?_⟩
  rw [classify_eq_zipWith, hclasses, List.zipWith_append hlength.symm]
  simp [classesFrom]

/-- Lexemes whose last token, comments aside, is a semicolon or a brace end with
that lexeme and comments. -/
theorem exists_eq_append_boundary
    {source : List Char} {last : Token}
    (hlast : ((classify (scan source).lexemes).filter (·.tokenClass ≠ .comment)).getLast? =
      some last)
    (hclass : last.tokenClass = .punctuation) (hcontent : last.content ∈ boundaryTexts) :
    ∃ before boundary comments, (scan source).lexemes = before ++ boundary :: comments ∧
      Lexeme.isBoundary boundary = true ∧ ∀ lexeme ∈ comments, lexeme.isComment = true := by
  rw [← classify_filter] at hlast
  rcases List.eq_nil_or_concat ((scan source).lexemes.filter Lexeme.isSignificant) with
    hnil | ⟨kept, boundary, hkept⟩
  · rw [hnil] at hlast
    cases hlast
  · rw [List.concat_eq_append] at hkept
    obtain ⟨context, call, hfound⟩ := getLast?_classify_concat kept boundary
    rw [hkept, hfound, Option.some.injEq] at hlast
    subst hlast
    obtain ⟨before, after, hsplit, _, hafter⟩ := List.filter_eq_append_iff.1 hkept
    obtain ⟨skipped, comments, rfl, _, _, hcomments⟩ := List.filter_eq_cons_iff.1 hafter
    have hmem : boundary ∈ (scan source).lexemes := by
      rw [hsplit]
      exact List.mem_append_right before (List.mem_append_right skipped List.mem_cons_self)
    obtain ⟨mark, hkind⟩ := Context.kind_of_step_class_eq_punctuation hclass
    obtain ⟨c, hmark, htext⟩ := exists_ofChar?_of_mem_scan hmem hkind
    refine ⟨before ++ skipped, boundary, comments, ?_, ?_, ?_⟩
    · rw [hsplit, List.append_assoc]
    · exact Lexeme.isBoundary_of_text hkind hmark htext hcontent
    · intro lexeme hlexeme
      have hdropped := List.filter_eq_nil_iff.1 hcomments lexeme hlexeme
      simpa [Lexeme.isSignificant] using hdropped

theorem classify_append_isPrefix
    {before comments : List Lexeme} {boundary : Lexeme} (hboundary : boundary.isBoundary = true)
    (hcomments : ∀ lexeme ∈ comments, lexeme.isComment = true) (following : List Lexeme) :
    classify (before ++ boundary :: comments) <+:
      classify (before ++ boundary :: comments ++ following) := by
  obtain ⟨more, hmore⟩ := classesFrom_append hboundary {} before hcomments following
  rw [classify_eq_zipWith, classify_eq_zipWith, ← hmore,
    List.zipWith_append (length_classesFrom _ _).symm]
  exact List.prefix_append _ _

/-! ## Added text -/

theorem lexemes_scan_isPrefix
    {above : List Char}
    (hclosed : ∀ d ∈ (scan above).diagnostics, d.problem ≠ .unterminatedBlockComment)
    (below : List Char) :
    (scan above).lexemes <+: (scan (above ++ '\n' :: below)).lexemes := by
  have hplaced := Piece.placed_append_lf .start
    (fun x hx chars => not_unclosed_of_mem_placed hclosed hx chars) below
  simp only [scan, Scan.ofPlaced, hplaced, List.flatMap_append]
  exact List.prefix_append _ _

theorem relative_isPrefix (line start : Nat) {tokens more : List Token}
    (hfirst : tokens <+: more) : relative line start tokens <+: relative line start more := by
  induction tokens generalizing line start more with
  | nil => exact List.nil_prefix
  | cons token rest ih =>
      obtain ⟨following, rfl⟩ := hfirst
      rw [List.cons_append, relative, relative]
      exact List.cons_prefix_cons.2 ⟨rfl, ih _ _ (List.prefix_append rest following)⟩

theorem encode_tokens_eq_relative
    {limits : Limits} {source : String} {found : Tokenized}
    (haccepted : tokenize limits source = .ok found) :
    encode found.tokens = relative 0 0 found.tokens := by
  have hshown : ∀ token ∈ found.tokens, token.isShown = true :=
    fun _ => isShown_of_mem_tokens haccepted
  rw [encode_eq_relative, arranged_eq_self hshown (pairwise_notAfter_tokens haccepted)]

/-- If no block comment of a text is left open and its last token, comments aside,
is a semicolon or a brace, then the tokens of the text are the first tokens of
every longer text that goes on below it, and so are their wire forms. -/
theorem tokens_stable_below
    {limits : Limits} {above below : String} {found extended : Tokenized}
    (habove : tokenize limits above = .ok found)
    (hwhole : tokenize limits (above ++ "\n" ++ below) = .ok extended)
    (hclosed : ∀ d ∈ found.diagnostics, d.problem ≠ .unterminatedBlockComment)
    {last : Token}
    (hlast : (found.tokens.filter (·.tokenClass ≠ .comment)).getLast? = some last)
    (hclass : last.tokenClass = .punctuation)
    (hcontent : last.content = ";" ∨ last.content = "\x7b" ∨ last.content = "\x7d") :
    found.tokens <+: extended.tokens ∧ encode found.tokens <+: encode extended.tokens := by
  have hfound := encode_tokens_eq_relative habove
  have hextended := encode_tokens_eq_relative hwhole
  have htokens : found.tokens <+: extended.tokens := by
    obtain ⟨_, _, rfl⟩ := tokenize_eq_ok_iff.1 habove
    obtain ⟨_, _, rfl⟩ := tokenize_eq_ok_iff.1 hwhole
    have hmem : last.content ∈ boundaryTexts := by simpa [boundaryTexts] using hcontent
    have hjoined : (above ++ "\n" ++ below).toList = above.toList ++ '\n' :: below.toList := by
      simp
    obtain ⟨before, boundary, comments, hlexemes, hboundary, hcomments⟩ :=
      exists_eq_append_boundary hlast hclass hmem
    obtain ⟨following, hfollowing⟩ := lexemes_scan_isPrefix hclosed below.toList
    dsimp only
    rw [hjoined, ← hfollowing, hlexemes]
    exact classify_append_isPrefix hboundary hcomments following
  refine ⟨htokens, ?_⟩
  rw [hfound, hextended]
  exact relative_isPrefix 0 0 htokens

/-- A call that a comment and a new operand follow. -/
theorem tokens_stable_below_call :
    ∃ found extended last,
      tokenize {} "g(a;// b" = .ok found ∧
      tokenize {} ("g(a;// b" ++ "\n" ++ ") q;") = .ok extended ∧
      (∀ d ∈ found.diagnostics, d.problem ≠ .unterminatedBlockComment) ∧
      (found.tokens.filter (·.tokenClass ≠ .comment)).getLast? = some last ∧
      last.tokenClass = .punctuation ∧ last.content = ";" ∧
      found.tokens <+: extended.tokens ∧ encode found.tokens <+: encode extended.tokens := by
  have hcall : Vocabulary.reservedClass? "g" = none := by decide
  have hargument : Vocabulary.reservedClass? "a" = none := by decide
  have hregister : Vocabulary.reservedClass? "q" = none := by decide
  have habove : tokenize {} "g(a;// b" = .ok
      ⟨[⟨.identifier, "g", ⟨1, 0⟩, 1⟩, ⟨.punctuation, "(", ⟨1, 1⟩, 1⟩,
        ⟨.identifier, "a", ⟨1, 2⟩, 1⟩, ⟨.punctuation, ";", ⟨1, 3⟩, 1⟩,
        ⟨.comment, "// b", ⟨1, 4⟩, 4⟩], []⟩ := by
    have hscan : scan "g(a;// b".toList =
        ⟨[⟨.word, "g", ⟨1, 0⟩, 1⟩, ⟨.punctuation .openParen, "(", ⟨1, 1⟩, 1⟩,
          ⟨.word, "a", ⟨1, 2⟩, 1⟩, ⟨.punctuation .semicolon, ";", ⟨1, 3⟩, 1⟩,
          ⟨.comment, "// b", ⟨1, 4⟩, 4⟩], []⟩ := by
      decide +kernel
    rw [tokenize_eq_ok_of_scan (by decide) (by decide) hscan]
    simp [classesFrom, headsCall, afterPartner?, Context.step, Context.word, Context.name,
      Context.punctuation, Scopes.contains, Lexeme.isComment, Lexeme.isOperand, Lexeme.toToken,
      hcall, hargument]
  have hwhole : tokenize {} ("g(a;// b" ++ "\n" ++ ") q;") = .ok
      ⟨[⟨.identifier, "g", ⟨1, 0⟩, 1⟩, ⟨.punctuation, "(", ⟨1, 1⟩, 1⟩,
        ⟨.identifier, "a", ⟨1, 2⟩, 1⟩, ⟨.punctuation, ";", ⟨1, 3⟩, 1⟩,
        ⟨.comment, "// b", ⟨1, 4⟩, 4⟩, ⟨.punctuation, ")", ⟨2, 0⟩, 1⟩,
        ⟨.identifier, "q", ⟨2, 2⟩, 1⟩, ⟨.punctuation, ";", ⟨2, 3⟩, 1⟩], []⟩ := by
    have hscan : scan ("g(a;// b" ++ "\n" ++ ") q;").toList =
        ⟨[⟨.word, "g", ⟨1, 0⟩, 1⟩, ⟨.punctuation .openParen, "(", ⟨1, 1⟩, 1⟩,
          ⟨.word, "a", ⟨1, 2⟩, 1⟩, ⟨.punctuation .semicolon, ";", ⟨1, 3⟩, 1⟩,
          ⟨.comment, "// b", ⟨1, 4⟩, 4⟩, ⟨.punctuation .closeParen, ")", ⟨2, 0⟩, 1⟩,
          ⟨.word, "q", ⟨2, 2⟩, 1⟩, ⟨.punctuation .semicolon, ";", ⟨2, 3⟩, 1⟩], []⟩ := by
      decide +kernel
    rw [tokenize_eq_ok_of_scan (by decide) (by decide) hscan]
    simp [classesFrom, headsCall, afterPartner?, Context.step, Context.word, Context.name,
      Context.punctuation, Scopes.contains, Lexeme.isComment, Lexeme.isOperand, Lexeme.toToken,
      hcall, hargument, hregister]
  have hclosed : ∀ d ∈ ([] : List Diagnostic), d.problem ≠ .unterminatedBlockComment := by
    intro d hd
    cases hd
  exact ⟨_, _, ⟨.punctuation, ";", ⟨1, 3⟩, 1⟩, habove, hwhole, hclosed, rfl, rfl, rfl,
    tokens_stable_below habove hwhole hclosed rfl rfl (.inl rfl)⟩

end QasmHighlight
