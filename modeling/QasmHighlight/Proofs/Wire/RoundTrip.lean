import QasmHighlight.Wire.Encoding

/-!
# Writing tokens and reading them back

Tokens in order of position are written as distances, each from the one before
it, and read back by adding the distances up.  One step of the reader undoes one
step of the writer as long as the token is not before the last one and its
position fits into words; from this, by going through the tokens, the reader
undoes the whole of what was written.
-/

namespace QasmHighlight

open Text

theorem Text.Position.notAfter_iff {p q : Position} :
    p.notAfter q = true ↔ p.line < q.line ∨ p.line = q.line ∧ p.column ≤ q.column := by
  simp [Position.notAfter]

structure Token.FitsWords (token : Token) : Prop where
  line_lt : token.position.line < wordBound
  column_lt : token.position.column < wordBound

def Quintuple.ofToken (line start : Nat) (token : Token) : Quintuple :=
  let deltaLine := token.position.line - 1 - line
  ⟨deltaLine,
    if deltaLine = 0 then token.position.column - start else token.position.column,
    token.length, token.tokenClass.index, 0⟩

/-- The quintuples of tokens in a row after a zero-based position. -/
def relative (line start : Nat) : List Token → List Quintuple
  | [] => []
  | token :: rest =>
    .ofToken line start token :: relative (token.position.line - 1) token.position.column rest

theorem DeltaWriter.data_foldl_pushToken (writer : DeltaWriter) (tokens : List Token) :
    (tokens.foldl DeltaWriter.pushToken writer).data =
      writer.data ++ relative writer.line writer.start tokens := by
  induction tokens generalizing writer with
  | nil => simp [relative]
  | cons token rest ih =>
      rw [List.foldl_cons, ih]
      simp [DeltaWriter.pushToken, DeltaWriter.push, DeltaWriter.data, relative,
        Quintuple.ofToken]

theorem encode_eq_relative (tokens : List Token) :
    encode tokens = relative 0 0 (arranged tokens) := by
  unfold encode
  rw [DeltaWriter.data_foldl_pushToken]
  rfl

@[simp] theorem length_relative (line start : Nat) (tokens : List Token) :
    (relative line start tokens).length = tokens.length := by
  induction tokens generalizing line start with
  | nil => rfl
  | cons token rest ih => simp [relative, ih]

theorem exists_token_of_mem_relative
    {line start : Nat} {tokens : List Token} {q : Quintuple}
    (hq : q ∈ relative line start tokens) :
    ∃ token ∈ tokens,
      q.length = token.length ∧ q.tokenType = token.tokenClass.index ∧ q.modifiers = 0 := by
  induction tokens generalizing line start with
  | nil => cases hq
  | cons token rest ih =>
      rcases List.mem_cons.1 hq with rfl | hlater
      · exact ⟨token, List.mem_cons_self, rfl, rfl, rfl⟩
      · obtain ⟨found, hfound, hnumbers⟩ := ih hlater
        exact ⟨found, List.mem_cons_of_mem token hfound, hnumbers⟩

theorem length_flatten (data : List Quintuple) : (flatten data).length = 5 * data.length := by
  induction data with
  | nil => rfl
  | cons q rest ih =>
      have hcons : flatten (q :: rest) = q.toList ++ flatten rest := rfl
      rw [hcons, List.length_append, ih, List.length_cons]
      simp only [Quintuple.toList, List.length_cons, List.length_nil]
      omega

theorem arranged_of_pairwise {tokens : List Token}
    (hsorted : tokens.Pairwise fun a b => a.position.notAfter b.position = true) :
    arranged tokens = tokens.filter Token.isShown :=
  List.mergeSort_of_pairwise (hsorted.filter Token.isShown)

theorem arranged_eq_self {tokens : List Token}
    (hshown : ∀ token ∈ tokens, token.isShown = true)
    (hsorted : tokens.Pairwise fun a b => a.position.notAfter b.position = true) :
    arranged tokens = tokens := by
  rw [arranged_of_pairwise hsorted, List.filter_eq_self.2 hshown]

/-! ## Reading back -/

private theorem addWords_eq_ok {a b : Nat} (hfits : a + b < wordBound) :
    addWords a b = .ok (a + b) :=
  if_pos hfits

private theorem addWords_eq_error {a b : Nat} (hover : ¬ a + b < wordBound) :
    addWords a b = .error .overflow :=
  if_neg hover

namespace Quintuple

/-- The zero-based line of a token when `line` is that of the token before it. -/
def lineAfter (line : Nat) (q : Quintuple) : Nat :=
  line + q.deltaLine

/-- The column of a token when `start` is that of the token before it. -/
def startAfter (start : Nat) (q : Quintuple) : Nat :=
  if q.deltaLine = 0 then start + q.deltaStart else q.deltaStart

def tokenAfter (line start : Nat) (q : Quintuple) : Token :=
  ⟨.ofIndex q.tokenType, "", ⟨q.lineAfter line + 1, q.startAfter start⟩, q.length⟩

end Quintuple

def Decoded.advance (decoded : Decoded) (q : Quintuple) : Decoded :=
  ⟨decoded.tokens.push (q.tokenAfter decoded.line decoded.start), q.lineAfter decoded.line,
    q.startAfter decoded.start⟩

theorem Decoded.push_eq (decoded : Decoded) {q : Quintuple} (hdelta : q.deltaStart < wordBound) :
    decoded.push q =
      if q.lineAfter decoded.line + 1 < wordBound ∧ q.startAfter decoded.start < wordBound then
        .ok (decoded.advance q)
      else .error .overflow := by
  simp only [Decoded.push, Decoded.advance, Quintuple.tokenAfter, Quintuple.lineAfter,
    Quintuple.startAfter, bind, Except.bind, pure, Except.pure]
  by_cases hsame : q.deltaLine = 0
  · simp only [hsame, if_true, Nat.add_zero]
    by_cases hstart : decoded.start + q.deltaStart < wordBound
    · by_cases hline : decoded.line + 1 < wordBound
      · simp only [addWords_eq_ok hstart, addWords_eq_ok hline, hline, hstart, and_self, if_true]
      · simp only [addWords_eq_ok hstart, addWords_eq_error hline, hline, false_and, if_false]
    · simp only [addWords_eq_error hstart, hstart, and_false, if_false]
  · simp only [hsame, if_false]
    by_cases hline : decoded.line + q.deltaLine + 1 < wordBound
    · have hsum : decoded.line + q.deltaLine < wordBound := by omega
      simp only [addWords_eq_ok hsum, addWords_eq_ok hline, hline, hdelta, and_self, if_true]
    · by_cases hsum : decoded.line + q.deltaLine < wordBound
      · simp only [addWords_eq_ok hsum, addWords_eq_error hline, hline, false_and, if_false]
      · simp only [addWords_eq_error hsum, hline, false_and, if_false]

namespace Quintuple

variable {line start : Nat} {token : Token}

theorem lineAfter_ofToken (hline : 1 ≤ token.position.line)
    (horder : (⟨line + 1, start⟩ : Position).notAfter token.position = true) :
    (ofToken line start token).lineAfter line = token.position.line - 1 := by
  rw [Position.notAfter_iff] at horder
  dsimp only at horder
  simp only [ofToken, lineAfter]
  omega

theorem startAfter_ofToken
    (horder : (⟨line + 1, start⟩ : Position).notAfter token.position = true) :
    (ofToken line start token).startAfter start = token.position.column := by
  rw [Position.notAfter_iff] at horder
  dsimp only at horder
  by_cases hsame : token.position.line - 1 - line = 0
  · simp only [ofToken, startAfter, hsame, if_true]
    omega
  · simp only [ofToken, startAfter, hsame, if_false]

theorem tokenAfter_ofToken (hline : 1 ≤ token.position.line)
    (horder : (⟨line + 1, start⟩ : Position).notAfter token.position = true) :
    (ofToken line start token).tokenAfter line start = token.bare := by
  have hnumber : token.position.line - 1 + 1 = token.position.line := by omega
  rw [tokenAfter, lineAfter_ofToken hline horder, startAfter_ofToken horder, hnumber]
  simp only [ofToken, TokenClass.ofIndex_index, Token.bare]

theorem deltaStart_ofToken_le (line start : Nat) (token : Token) :
    (ofToken line start token).deltaStart ≤ token.position.column := by
  simp only [ofToken]
  split <;> omega

end Quintuple

/-- Reading the quintuple of a token that is not before the last one gives the
token, and its position as the last one. -/
theorem Decoded.push_ofToken
    (decoded : Decoded) {token : Token} (hline : 1 ≤ token.position.line)
    (hfits : token.FitsWords)
    (horder : (⟨decoded.line + 1, decoded.start⟩ : Position).notAfter token.position = true) :
    decoded.push (.ofToken decoded.line decoded.start token) =
      .ok ⟨decoded.tokens.push token.bare, token.position.line - 1,
        token.position.column⟩ := by
  have hlineLt := hfits.line_lt
  have hcolumnLt := hfits.column_lt
  have hdelta := Quintuple.deltaStart_ofToken_le decoded.line decoded.start token
  have hnumber : token.position.line - 1 + 1 < wordBound := by omega
  rw [decoded.push_eq (by omega), Decoded.advance, Quintuple.lineAfter_ofToken hline horder,
    Quintuple.startAfter_ofToken horder, Quintuple.tokenAfter_ofToken hline horder,
    if_pos ⟨hnumber, hcolumnLt⟩]

/-- Reading what was written for tokens in order gives the tokens without their
contents. -/
theorem Decoded.foldlM_push_relative
    (decoded : Decoded) {tokens : List Token}
    (hlines : ∀ token ∈ tokens, 1 ≤ token.position.line)
    (hfits : ∀ token ∈ tokens, token.FitsWords)
    (hfirst : ∀ token ∈ tokens,
      (⟨decoded.line + 1, decoded.start⟩ : Position).notAfter token.position = true)
    (hsorted : tokens.Pairwise fun a b => a.position.notAfter b.position = true) :
    ∃ final, (relative decoded.line decoded.start tokens).foldlM Decoded.push decoded = .ok final ∧
      final.tokens.toList = decoded.tokens.toList ++ tokens.map Token.bare := by
  induction tokens generalizing decoded with
  | nil => exact ⟨decoded, rfl, by simp⟩
  | cons token rest ih =>
      have hline := hlines token List.mem_cons_self
      have hstep := decoded.push_ofToken hline (hfits token List.mem_cons_self)
        (hfirst token List.mem_cons_self)
      rw [List.pairwise_cons] at hsorted
      have hnext : ∀ later ∈ rest,
          (⟨token.position.line - 1 + 1, token.position.column⟩ : Position).notAfter
            later.position = true := by
        intro later hlater
        rw [Nat.sub_add_cancel hline]
        exact hsorted.1 later hlater
      obtain ⟨final, hrun, htokens⟩ := ih
        ⟨decoded.tokens.push token.bare, token.position.line - 1, token.position.column⟩
        (fun later hlater => hlines later (List.mem_cons_of_mem token hlater))
        (fun later hlater => hfits later (List.mem_cons_of_mem token hlater))
        hnext hsorted.2
      refine ⟨final, ?_, ?_⟩
      · rw [relative, List.foldlM_cons, hstep]
        exact hrun
      · rw [htokens]
        simp

theorem decode_relative {tokens : List Token}
    (hlines : ∀ token ∈ tokens, 1 ≤ token.position.line)
    (hfits : ∀ token ∈ tokens, token.FitsWords)
    (hsorted : tokens.Pairwise fun a b => a.position.notAfter b.position = true) :
    decode (relative 0 0 tokens) = .ok (tokens.map Token.bare) := by
  have hfirst : ∀ token ∈ tokens,
      (⟨0 + 1, 0⟩ : Position).notAfter token.position = true := by
    intro token htoken
    have hline := hlines token htoken
    rw [Position.notAfter_iff]
    dsimp only
    omega
  obtain ⟨final, hrun, htokens⟩ :=
    Decoded.foldlM_push_relative {} hlines hfits hfirst hsorted
  unfold decode
  rw [hrun]
  simp [bind, Except.bind, pure, Except.pure, htokens]

end QasmHighlight
