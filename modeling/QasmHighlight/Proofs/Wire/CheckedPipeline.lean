import QasmHighlight.Proofs.Lexeme.CheckedScan
import QasmHighlight.Proofs.Token.Declaration
import QasmHighlight.Proofs.Token.Stability
import QasmHighlight.Proofs.Wire.Arrangement

/-!
# From source text to the wire and back with words

The classifier counts open brackets, and the encoder takes one off each line.  Here
both are written with checked words, and so is the whole way from a source text to
its tokens.  Each definition does what the one of its name does on plain numbers; the
only sum of the classifier is the count of brackets, which a closing bracket without
an open one leaves at zero.  With room for a bracket at each lexeme the classifier
meets no fault.  No count exceeds the number of lexemes, of which a text has no more
than bytes, and only tokens that have a line are encoded.  Together with the checked
scan this shows that a text of at most `2 ^ 32 - 2` bytes meets no fault on its way to
the wire and back.
-/

namespace QasmHighlight

open Text

namespace Checked

def stepContext (context : Context) (lexeme : Lexeme) (headsCall : Bool) :
    Except WordFault (TokenClass × Context) :=
  match lexeme.kind with
  | .punctuation .openBracket => do
    let depth ← add context.bracketDepth 1
    return (.punctuation, { context with bracketDepth := depth, atHead := false })
  | _ => return context.step lexeme headsCall

def stepClassified (found : Classified) (ahead : Lookahead) (lexeme : Lexeme) (place : Nat) :
    Except WordFault Classified := do
  let next ← stepContext found.context lexeme (ahead.headsCallAt place)
  return ⟨found.tokens.push (lexeme.toToken next.1), next.2⟩

def contextAfter (context : Context) (following : List Lexeme) :
    List Lexeme → Except WordFault Context
  | [] => return context
  | lexeme :: rest => do
    let next ← stepContext context lexeme (headsCall (rest ++ following))
    contextAfter next.2 following rest

def classify (lexemes : List Lexeme) : Except WordFault (List Token) := do
  let ahead := Lookahead.ofLexemes lexemes
  let found ← lexemes.zipIdx.foldlM
    (fun (found : Classified) x => stepClassified found ahead x.1 x.2) {}
  return found.tokens.toList

/-- The tokens and diagnostics of a text within the limits, or the refusal of it. -/
def tokenize (limits : Limits) (source : String) :
    Except WordFault (Except Refusal Tokenized) :=
  if limits.maxBytes < source.utf8ByteSize then
    return .error (.tooLarge source.utf8ByteSize limits.maxBytes)
  else do
    let scanned ← scanWithin limits.maxTokens source.toList
    match scanned with
    | none => return .error (.tooManyTokens limits.maxTokens)
    | some found =>
      let tokens ← classify found.lexemes
      return .ok ⟨tokens, found.diagnostics⟩

def pushToken (writer : DeltaWriter) (token : Token) : Except WordFault DeltaWriter := do
  let line ← sub token.position.line 1
  return writer.push line token.position.column token.length token.tokenClass.index

def encode (tokens : List Token) : Except WordFault (List Quintuple) := do
  let writer ← (arranged tokens).foldlM pushToken {}
  return writer.data

end Checked

/-! ## Brackets -/

theorem Context.bracketDepth_step_le (context : Context) (lexeme : Lexeme) (call : Bool) :
    (context.step lexeme call).2.bracketDepth ≤ context.bracketDepth + 1 := by
  rw [Context.bracketDepth_step]
  unfold bracketsPast
  split <;> omega

namespace Checked

theorem stepContext_eq_ok {context : Context} (hdepth : context.bracketDepth + 1 < wordBound)
    (lexeme : Lexeme) (headsCall : Bool) :
    stepContext context lexeme headsCall = .ok (context.step lexeme headsCall) := by
  unfold stepContext
  split
  · next hkind =>
    rw [add_eq_ok hdepth]
    simp only [Context.step, hkind]
    rfl
  · rfl

theorem contextAfter_eq_ok {context : Context} {lexemes : List Lexeme}
    (hroom : context.bracketDepth + lexemes.length < wordBound) (following : List Lexeme) :
    contextAfter context following lexemes =
      .ok (QasmHighlight.contextAfter context following lexemes) := by
  induction lexemes generalizing context with
  | nil => rfl
  | cons lexeme rest ih =>
      rw [List.length_cons] at hroom
      have hopen : context.bracketDepth + 1 < wordBound := by omega
      have hgrown := context.bracketDepth_step_le lexeme (headsCall (rest ++ following))
      rw [contextAfter, stepContext_eq_ok hopen]
      exact ih (by omega)

/-- A declaration is gone through without a fault if there is room for a bracket at
each of its lexemes, and the checked step at the name declares it. -/
theorem stepContext_of_declaration
    {context : Context} (hhead : context.atHead = true)
    {modifiers designator before : List Lexeme} {keyword name : Lexeme}
    (hmodifiers : ∀ modifier ∈ modifiers, modifier.IsModifier)
    (hkeyword : keyword.IsRegisterKeyword) (hdesignator : IsDesignator designator)
    (hname : name.isName = true)
    (hbefore : before.filter Lexeme.isSignificant = modifiers ++ keyword :: designator)
    (hroom : context.bracketDepth + (before.length + 1) < wordBound)
    (following : List Lexeme) :
    ∃ reached after,
      contextAfter context (name :: following) before = .ok reached ∧
      stepContext reached name (headsCall following) = .ok (.identifier, after) ∧
      after.scopes = context.scopes.declare name.text ∧ after.gates = context.gates := by
  obtain ⟨hawaits, hdepth⟩ :=
    Context.awaits_of_declaration hhead hmodifiers hkeyword hdesignator hbefore
  obtain ⟨hclass, hscopes, hgates⟩ := hawaits.step_name hdepth hname (headsCall following)
  have hrun := contextAfter_eq_ok (show context.bracketDepth + before.length < wordBound by omega)
    (name :: following)
  rw [contextAfter_following] at hrun
  have hopen : (QasmHighlight.contextAfter context [] before).bracketDepth + 1 < wordBound := by
    omega
  refine ⟨_, _, hrun, ?_, hscopes, hgates⟩
  rw [stepContext_eq_ok hopen, ← hclass]

theorem foldlM_stepClassified_eq_ok (ahead : Lookahead) (lexemes : List (Lexeme × Nat))
    {found : Classified} (hdepth : found.context.bracketDepth + lexemes.length < wordBound) :
    lexemes.foldlM (fun (found : Classified) x => stepClassified found ahead x.1 x.2) found =
      .ok (lexemes.foldl (fun (found : Classified) x => found.step ahead x.1 x.2) found) := by
  induction lexemes generalizing found with
  | nil => rfl
  | cons x rest ih =>
      rw [List.length_cons] at hdepth
      have hroom : found.context.bracketDepth + 1 < wordBound := by omega
      have hstep : stepClassified found ahead x.1 x.2 = .ok (found.step ahead x.1 x.2) := by
        unfold stepClassified
        rw [stepContext_eq_ok hroom]
        rfl
      have hgrown := found.context.bracketDepth_step_le x.1 (ahead.headsCallAt x.2)
      have hrest : (found.step ahead x.1 x.2).context.bracketDepth + rest.length < wordBound := by
        unfold Classified.step
        dsimp only
        omega
      rw [List.foldlM_cons, List.foldl_cons, hstep]
      exact ih hrest

theorem classify_eq_ok {lexemes : List Lexeme} (hcount : lexemes.length < wordBound) :
    classify lexemes = .ok (QasmHighlight.classify lexemes) := by
  have hdepth : ({} : Classified).context.bracketDepth + lexemes.zipIdx.length < wordBound := by
    rw [List.length_zipIdx, Nat.zero_add]
    exact hcount
  unfold classify
  simp only [foldlM_stepClassified_eq_ok _ _ hdepth]
  rfl

end Checked

private theorem length_lexemesOf_place_le (p : Position) (next : Option Char) {pieces : List Piece}
    (hplain : ∀ piece ∈ pieces, piece.IsPlain) :
    (Piece.lexemesOf (Piece.place p next pieces)).length ≤ (Piece.texts pieces).length := by
  induction pieces generalizing p with
  | nil => exact Nat.le_refl 0
  | cons piece rest ih =>
      obtain ⟨hpiece, hrest⟩ := List.forall_mem_cons.1 hplain
      have hlater := ih (p.after piece.text ((Piece.texts rest).head?.or next)) hrest
      have hown : (piece.lexemes p).length ≤ piece.text.length := by
        cases piece with
        | space c => exact Nat.zero_le _
        | stray c => exact Nat.zero_le _
        | lexeme kind chars => exact List.length_pos_iff.2 hpiece.1
        | blockComment chars closed => exact hpiece.elim
      rw [Piece.lexemesOf_place_cons, List.length_append, Piece.texts_cons, List.length_append]
      omega

theorem length_lexemes_scan_le_bytes (source : List Char) :
    (scan source).lexemes.length ≤ bytes source := by
  have hplain : ∀ piece ∈ Piece.ofSource source, piece.IsPlain :=
    fun _ => Piece.isPlain_of_mem_ofSource
  have hcount := length_lexemesOf_place_le .start none hplain
  rw [← Piece.lexemes_scan, Piece.texts_ofSource] at hcount
  exact hcount.trans (length_le_bytes source)

/-! ## Tokens -/

namespace Checked

theorem tokenize_eq_ok {limits : Limits} {source : String}
    (hsmall : source.utf8ByteSize + 1 < wordBound ∨ limits.maxBytes + 1 < wordBound) :
    tokenize limits source = .ok (QasmHighlight.tokenize limits source) := by
  unfold tokenize QasmHighlight.tokenize
  split
  · rfl
  · next hfits =>
    have hbytes : bytes source.toList + 1 < wordBound := by
      rw [bytes_toList]
      omega
    have hcount := length_lexemes_scan_le_bytes source.toList
    have hclasses := classify_eq_ok (show (scan source.toList).lexemes.length < wordBound by omega)
    rw [scanWithin_eq_ok _ hbytes, scanWithin_eq]
    by_cases hmany : limits.maxTokens < (scan source.toList).lexemes.length
    · simp only [hmany, if_true, bind, Except.bind]
      rfl
    · simp only [hmany, if_false, bind, Except.bind, hclasses]
      rfl

theorem pushToken_eq_ok (writer : DeltaWriter) {token : Token} (hline : 1 ≤ token.position.line) :
    pushToken writer token = .ok (writer.pushToken token) := by
  unfold pushToken
  rw [sub_eq_ok hline]
  rfl

theorem foldlM_pushToken_eq_ok (writer : DeltaWriter) {tokens : List Token}
    (hlines : ∀ token ∈ tokens, 1 ≤ token.position.line) :
    tokens.foldlM pushToken writer = .ok (tokens.foldl DeltaWriter.pushToken writer) := by
  induction tokens generalizing writer with
  | nil => rfl
  | cons token rest ih =>
      obtain ⟨hline, hrest⟩ := List.forall_mem_cons.1 hlines
      rw [List.foldlM_cons, List.foldl_cons, pushToken_eq_ok writer hline]
      exact ih _ hrest

/-- Tokens without a line are left out before one is taken off each line. -/
theorem encode_eq_ok (tokens : List Token) : encode tokens = .ok (QasmHighlight.encode tokens) := by
  have hlines : ∀ token ∈ arranged tokens, 1 ≤ token.position.line := by
    intro token htoken
    exact (Token.isShown_iff.1 (mem_of_mem_arranged htoken).2).1
  unfold encode
  rw [foldlM_pushToken_eq_ok {} hlines]
  rfl

end Checked

theorem decode_encode_tokens
    {limits : Limits} {source : String} {found : Tokenized}
    (haccepted : tokenize limits source = .ok found)
    (hsmall : source.utf8ByteSize + 1 < wordBound) :
    decode (encode found.tokens) = .ok (found.tokens.map Token.bare) := by
  have hlines : ∀ token ∈ found.tokens, 1 ≤ token.position.line := by
    intro token htoken
    exact (Token.isShown_iff.1 (isShown_of_mem_tokens haccepted htoken)).1
  have hfits : ∀ token ∈ found.tokens, token.FitsWords :=
    fun _ => fitsWords_of_mem_tokens haccepted hsmall
  rw [encode_tokens_eq_relative haccepted,
    decode_relative hlines hfits (pairwise_notAfter_tokens haccepted)]

/-- In a text of at most `2 ^ 32 - 2` bytes, or under a byte limit that admits no
longer one, no sum leaves the words and no difference falls below zero: not while
the text is scanned and classified, nor while its tokens are encoded or decoded
again. -/
theorem words_suffice (limits : Limits) (source : String)
    (hsmall : source.utf8ByteSize ≤ 2 ^ 32 - 2 ∨ limits.maxBytes ≤ 2 ^ 32 - 2) :
    Checked.tokenize limits source = .ok (tokenize limits source) ∧
    ∀ found, tokenize limits source = .ok found →
      Checked.encode found.tokens = .ok (encode found.tokens) ∧
      decode (encode found.tokens) = .ok (found.tokens.map Token.bare) := by
  have hwords : source.utf8ByteSize + 1 < wordBound ∨ limits.maxBytes + 1 < wordBound := by
    unfold wordBound
    omega
  refine ⟨Checked.tokenize_eq_ok hwords, ?_⟩
  intro found haccepted
  have hbytes := (tokenize_eq_ok_iff.1 haccepted).1
  exact ⟨Checked.encode_eq_ok found.tokens, decode_encode_tokens haccepted (by omega)⟩

/-- A comment over a CRLF between brackets, under the limits that hold by default. -/
theorem words_suffice_between_brackets :
    ∃ found, tokenize {} "q[/*\r\n𝜃*/0]?" = .ok found ∧
      Checked.tokenize {} "q[/*\r\n𝜃*/0]?" = .ok (.ok found) ∧
      Checked.encode found.tokens = .ok (encode found.tokens) ∧
      decode (encode found.tokens) = .ok (found.tokens.map Token.bare) := by
  have haccepted : tokenize {} "q[/*\r\n𝜃*/0]?" = .ok
      ⟨[⟨.identifier, "q", ⟨1, 0⟩, 1⟩, ⟨.punctuation, "[", ⟨1, 1⟩, 1⟩,
        ⟨.comment, "/*", ⟨1, 2⟩, 2⟩, ⟨.comment, "𝜃*/", ⟨2, 0⟩, 4⟩,
        ⟨.number, "0", ⟨2, 4⟩, 1⟩, ⟨.punctuation, "]", ⟨2, 5⟩, 1⟩],
        [⟨.unexpectedCharacter '?', ⟨2, 6⟩⟩]⟩ := by
    have hscan : scan "q[/*\r\n𝜃*/0]?".toList =
        ⟨[⟨.word, "q", ⟨1, 0⟩, 1⟩, ⟨.punctuation .openBracket, "[", ⟨1, 1⟩, 1⟩,
          ⟨.comment, "/*", ⟨1, 2⟩, 2⟩, ⟨.comment, "𝜃*/", ⟨2, 0⟩, 4⟩,
          ⟨.number, "0", ⟨2, 4⟩, 1⟩, ⟨.punctuation .closeBracket, "]", ⟨2, 5⟩, 1⟩],
          [⟨.unexpectedCharacter '?', ⟨2, 6⟩⟩]⟩ := by
      decide +kernel
    have hname : Vocabulary.reservedClass? "q" = none := by decide
    rw [tokenize_eq_ok_of_scan (by decide) (by decide) hscan]
    simp [classesFrom, headsCall, Context.step, Context.word, Context.name, Context.punctuation,
      Scopes.contains, Lexeme.isComment, Lexeme.isOperand, Lexeme.toToken, hname]
  obtain ⟨htokens, hwire⟩ := words_suffice {} "q[/*\r\n𝜃*/0]?" (.inr (by decide))
  rw [haccepted] at htokens
  exact ⟨_, haccepted, htokens, hwire _ haccepted⟩

end QasmHighlight
