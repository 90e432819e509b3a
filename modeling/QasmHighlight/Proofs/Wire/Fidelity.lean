import Mathlib.Data.List.Chain
import QasmHighlight.Proofs.Token.Placement
import QasmHighlight.Proofs.Wire.RoundTrip

/-!
# Accepted texts on the wire

The tokens of an accepted text are in order, none of them is empty, and their
positions fit into words because the text is no larger than the byte limit.  So
encoding keeps every token in its place, decoding gives all of them back without
their contents, and on the wire no token overlaps the one before it.
-/

namespace QasmHighlight

open Text

namespace Cut

variable {source : List Char}

private theorem bytes_before_le (cut : Cut source) : bytes cut.before ≤ bytes source := by
  have hparts := congrArg bytes cut.whole
  simp only [bytes_append] at hparts
  omega

theorem Holds.one_le_line {cut : Cut source} {content : String} {position : Position}
    {length : Nat} (hholds : cut.Holds content position length) : 1 ≤ position.line := by
  rw [hholds.position_eq, positionAt]
  exact Nat.le_add_right 1 _

theorem Holds.position_le {cut : Cut source} {content : String} {position : Position}
    {length : Nat} (hholds : cut.Holds content position length) :
    position.line ≤ bytes source + 1 ∧ position.column ≤ bytes source := by
  have hbytes := cut.bytes_before_le
  have hposition := Position.start_after_le_bytes cut.before (cut.text.head?.or none)
  rw [← hholds.position_eq_after] at hposition
  omega

end Cut

theorem exists_holds_of_mem_tokens
    {limits : Limits} {source : String} {found : Tokenized}
    (haccepted : tokenize limits source = .ok found)
    {token : Token} (htoken : token ∈ found.tokens) :
    ∃ cut : Cut source.toList, cut.Holds token.content token.position token.length := by
  obtain ⟨k, hk⟩ := List.getElem?_of_mem htoken
  obtain ⟨cut, _, hholds⟩ := exists_cut_of_token haccepted hk
  exact ⟨cut, hholds⟩

theorem isShown_of_mem_tokens
    {limits : Limits} {source : String} {found : Tokenized}
    (haccepted : tokenize limits source = .ok found)
    {token : Token} (htoken : token ∈ found.tokens) : token.isShown = true := by
  obtain ⟨cut, hholds⟩ := exists_holds_of_mem_tokens haccepted htoken
  simp [Token.isShown, hholds.one_le_line, hholds.length_pos]

/-- In a text of fewer bytes than there are words all positions are words. -/
theorem fitsWords_of_mem_tokens
    {limits : Limits} {source : String} {found : Tokenized}
    (haccepted : tokenize limits source = .ok found)
    (hsmall : source.utf8ByteSize + 1 < wordBound)
    {token : Token} (htoken : token ∈ found.tokens) : token.FitsWords := by
  obtain ⟨cut, hholds⟩ := exists_holds_of_mem_tokens haccepted htoken
  have hposition := hholds.position_le
  rw [bytes_toList] at hposition
  constructor <;> omega

theorem pairwise_notAfter_tokens
    {limits : Limits} {source : String} {found : Tokenized}
    (haccepted : tokenize limits source = .ok found) :
    found.tokens.Pairwise fun a b => a.position.notAfter b.position = true := by
  apply (pairwise_tokens haccepted).imp
  intro a b hends
  rw [Position.notAfter_iff]
  unfold Position.EndsBefore at hends
  omega

/-- A token that does not overlap the one before it is at least the length of
that one away from it on the same line. -/
theorem length_le_deltaStart
    {a b : Token} (hline : 1 ≤ a.position.line)
    (hends : a.position.EndsBefore a.length b.position)
    (hsame : (Quintuple.ofToken (a.position.line - 1) a.position.column b).deltaLine = 0) :
    a.length ≤ (Quintuple.ofToken (a.position.line - 1) a.position.column b).deltaStart := by
  simp only [Quintuple.ofToken] at hsame ⊢
  rw [if_pos hsame]
  unfold Position.EndsBefore at hends
  omega

theorem isChain_relative
    (line start : Nat) {tokens : List Token}
    (hlines : ∀ token ∈ tokens, 1 ≤ token.position.line)
    (hends : tokens.Pairwise fun a b => a.position.EndsBefore a.length b.position) :
    (relative line start tokens).IsChain fun p q => q.deltaLine = 0 → p.length ≤ q.deltaStart := by
  induction tokens generalizing line start with
  | nil => exact .nil
  | cons a rest ih =>
      have hline := hlines a List.mem_cons_self
      have hrest : ∀ token ∈ rest, 1 ≤ token.position.line := by
        intro token htoken
        exact hlines token (List.mem_cons_of_mem a htoken)
      rw [List.pairwise_cons] at hends
      have htail := ih (a.position.line - 1) a.position.column hrest hends.2
      cases rest with
      | nil => exact .singleton _
      | cons b more =>
          refine .cons_cons ?_ htail
          intro hsame
          exact length_le_deltaStart hline (hends.1 b List.mem_cons_self) hsame

/-- The wire form of an accepted text has every token of the text in its place.
Decoding gives all of them back without their contents, and no token overlaps
the one before it. -/
theorem encode_tokenize_faithful
    {source : String} {found : Tokenized} (haccepted : tokenize {} source = .ok found) :
    arranged found.tokens = found.tokens ∧
    (flatten (encode found.tokens)).length = 5 * found.tokens.length ∧
    decode (encode found.tokens) = .ok (found.tokens.map Token.bare) ∧
    (∀ q ∈ encode found.tokens, 0 < q.length ∧ q.tokenType < 17 ∧ q.modifiers = 0) ∧
    (found.tokens.Pairwise fun a b =>
      a.position.line < b.position.line ∨
        a.position.line = b.position.line ∧ a.position.column + a.length ≤ b.position.column) ∧
    (encode found.tokens).IsChain fun p q => q.deltaLine = 0 → p.length ≤ q.deltaStart := by
  have hshown : ∀ token ∈ found.tokens, token.isShown = true :=
    fun _ => isShown_of_mem_tokens haccepted
  have hlines : ∀ token ∈ found.tokens, 1 ≤ token.position.line := by
    intro token htoken
    obtain ⟨cut, hholds⟩ := exists_holds_of_mem_tokens haccepted htoken
    exact hholds.one_le_line
  have hsmall : source.utf8ByteSize + 1 < wordBound := by
    have hlimit := (tokenize_eq_ok_iff.1 haccepted).1
    dsimp only at hlimit
    unfold wordBound
    omega
  have hfits : ∀ token ∈ found.tokens, token.FitsWords :=
    fun _ => fitsWords_of_mem_tokens haccepted hsmall
  have hsorted := pairwise_notAfter_tokens haccepted
  have hends := pairwise_tokens haccepted
  have harranged := arranged_eq_self hshown hsorted
  have hencode : encode found.tokens = relative 0 0 found.tokens := by
    rw [encode_eq_relative, harranged]
  refine ⟨harranged, ?_, ?_, ?_, hends, ?_⟩
  · rw [length_flatten, hencode, length_relative]
  · rw [hencode, decode_relative hlines hfits hsorted]
  · intro q hq
    rw [hencode] at hq
    obtain ⟨token, htoken, hlength, htype, hmodifiers⟩ := exists_token_of_mem_relative hq
    obtain ⟨cut, hholds⟩ := exists_holds_of_mem_tokens haccepted htoken
    rw [hlength, htype]
    exact ⟨hholds.length_pos, token.tokenClass.index_lt, hmodifiers⟩
  · rw [hencode]
    exact isChain_relative 0 0 hlines hends

/-- A comment over a CR and an LF right after a numeral. -/
theorem encode_tokenize_faithful_comment_lines :
    ∃ found, tokenize {} "0x1/*\r𝜃\n*/" = .ok found ∧
      arranged found.tokens = found.tokens ∧
      (flatten (encode found.tokens)).length = 5 * found.tokens.length ∧
      decode (encode found.tokens) = .ok (found.tokens.map Token.bare) ∧
      (∀ q ∈ encode found.tokens, 0 < q.length ∧ q.tokenType < 17 ∧ q.modifiers = 0) ∧
      (found.tokens.Pairwise fun a b =>
        a.position.line < b.position.line ∨
          a.position.line = b.position.line ∧
            a.position.column + a.length ≤ b.position.column) ∧
      (encode found.tokens).IsChain fun p q => q.deltaLine = 0 → p.length ≤ q.deltaStart := by
  have haccepted : tokenize {} "0x1/*\r𝜃\n*/" = .ok
      ⟨[⟨.number, "0x1", ⟨1, 0⟩, 3⟩, ⟨.comment, "/*", ⟨1, 3⟩, 2⟩, ⟨.comment, "𝜃", ⟨2, 0⟩, 2⟩,
        ⟨.comment, "*/", ⟨3, 0⟩, 2⟩], []⟩ := by
    decide +kernel
  exact ⟨_, haccepted, encode_tokenize_faithful haccepted⟩

end QasmHighlight
