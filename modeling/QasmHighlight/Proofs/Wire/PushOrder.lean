import Mathlib.Data.List.Basic
import QasmHighlight.Proofs.Wire.Canonical

/-!
# Tokens pushed in order and out of order

The writer takes tokens at any zero-based positions.  A position before the last one
counts as no distance but is the last one from then on, so what a reader adds up no
longer is what was pushed.  No distance exceeds the position that was pushed, so all
that is written are words.  A reader never goes back, so the tokens it finds are in
order; it finds the tokens that were pushed exactly if these are in order.
-/

namespace QasmHighlight

open Text

/-- A token as it is handed to the writer. -/
structure Push where
  line : Nat
  start : Nat
  length : Nat
  tokenType : Nat

namespace Push

/-- All four numbers are words, the line has a next one, and the class is in the
legend. -/
structure Admissible (push : Push) : Prop where
  line_le : push.line ≤ wordBound - 2
  start_lt : push.start < wordBound
  length_lt : push.length < wordBound
  tokenType_lt : push.tokenType < 17

def token (push : Push) : Token :=
  ⟨.ofIndex push.tokenType, "", ⟨push.line + 1, push.start⟩, push.length⟩

theorem Admissible.fitsWords_token {push : Push} (hpush : push.Admissible) :
    push.token.FitsWords := by
  have hline := hpush.line_le
  have hroom : push.line + 1 < wordBound := by
    unfold wordBound at *
    omega
  exact ⟨hroom, hpush.start_lt⟩

end Push

namespace DeltaWriter

/-! ## What is written -/

def pushAll (writer : DeltaWriter) (pushes : List Push) : DeltaWriter :=
  pushes.foldl (fun writer push => writer.push push.line push.start push.length push.tokenType)
    writer

/-- The last position and all that was written are words. -/
structure FitsWords (writer : DeltaWriter) : Prop where
  line_lt : writer.line < wordBound
  start_lt : writer.start < wordBound
  data : ∀ q ∈ writer.data, q.FitsWords

private theorem data_push (writer : DeltaWriter) (line start length tokenType : Nat) :
    (writer.push line start length tokenType).data = writer.data ++
      [⟨line - writer.line, if line - writer.line = 0 then start - writer.start else start,
        length, tokenType, 0⟩] := by
  simp [push, data]

theorem fitsWords_empty : ({} : DeltaWriter).FitsWords := by
  refine ⟨by decide, by decide, ?_⟩
  intro q hq
  cases hq

theorem FitsWords.push {writer : DeltaWriter} (hwriter : writer.FitsWords) {push : Push}
    (hpush : push.Admissible) :
    (writer.push push.line push.start push.length push.tokenType).FitsWords := by
  obtain ⟨hline, hstart, hlength, htype⟩ := hpush
  have hlineLt : push.line < wordBound := Nat.lt_of_le_of_lt hline (by decide)
  have hwritten : ∀ q ∈ (writer.push push.line push.start push.length push.tokenType).data,
      q.FitsWords := by
    rw [data_push, List.forall_mem_append, List.forall_mem_singleton]
    refine ⟨hwriter.data, ?_⟩
    intro n hn
    simp only [Quintuple.toList, List.mem_cons, List.not_mem_nil, or_false] at hn
    unfold wordBound at *
    split at hn <;> omega
  exact ⟨hlineLt, hstart, hwritten⟩

theorem FitsWords.pushAll {writer : DeltaWriter} (hwriter : writer.FitsWords)
    {pushes : List Push} (hpushes : ∀ push ∈ pushes, push.Admissible) :
    (writer.pushAll pushes).FitsWords := by
  induction pushes generalizing writer with
  | nil => exact hwriter
  | cons push rest ih =>
      obtain ⟨hpush, hrest⟩ := List.forall_mem_cons.1 hpushes
      exact ih (hwriter.push hpush) hrest

theorem size_pushAll (writer : DeltaWriter) (pushes : List Push) :
    (writer.pushAll pushes).size = writer.size + pushes.length := by
  induction pushes generalizing writer with
  | nil => rfl
  | cons push rest ih =>
      have hone : (writer.push push.line push.start push.length push.tokenType).size =
          writer.size + 1 :=
        Array.size_push _
      rw [pushAll, List.foldl_cons, ← pushAll, ih, hone, List.length_cons]
      omega

private theorem push_eq_pushToken (writer : DeltaWriter) {push : Push}
    (htype : push.tokenType < 17) :
    writer.push push.line push.start push.length push.tokenType = writer.pushToken push.token := by
  simp only [pushToken, Push.token, Nat.add_sub_cancel, TokenClass.index_ofIndex htype]

theorem data_pushAll {pushes : List Push} (hpushes : ∀ push ∈ pushes, push.Admissible) :
    (({} : DeltaWriter).pushAll pushes).data = relative 0 0 (pushes.map Push.token) := by
  have hsame : ({} : DeltaWriter).pushAll pushes =
      (pushes.map Push.token).foldl pushToken {} := by
    rw [pushAll, List.foldl_map]
    apply List.foldl_ext
    intro writer push hpush
    exact writer.push_eq_pushToken (hpushes push hpush).tokenType_lt
  rw [hsame, data_foldl_pushToken]
  rfl

end DeltaWriter

/-! ## What is read back -/

/-- A reader finds the tokens again exactly if they are in order, since it never goes
back. -/
theorem decode_relative_eq_ok_iff {tokens : List Token}
    (hlines : ∀ token ∈ tokens, 1 ≤ token.position.line)
    (hfits : ∀ token ∈ tokens, token.FitsWords)
    (hwords : ∀ q ∈ relative 0 0 tokens, q.FitsWords) :
    decode (relative 0 0 tokens) = .ok (tokens.map Token.bare) ↔
      tokens.Pairwise fun a b => a.position.notAfter b.position = true := by
  constructor
  · intro hdecoded
    rcases decode_cases hwords with ⟨hfails, _⟩ | ⟨hfound, _⟩
    · rw [hfails] at hdecoded
      cases hdecoded
    · rw [hfound, Except.ok.injEq] at hdecoded
      have horder := pairwise_absolute 0 0 (relative 0 0 tokens)
      rwa [hdecoded, List.pairwise_map] at horder
  · exact decode_relative hlines hfits

theorem pairwise_notAfter_map_token_iff {pushes : List Push} :
    ((pushes.map Push.token).Pairwise fun a b => a.position.notAfter b.position = true) ↔
      pushes.Pairwise fun a b => a.line < b.line ∨ a.line = b.line ∧ a.start ≤ b.start := by
  rw [List.pairwise_map]
  simp only [Position.notAfter_iff, Push.token, Nat.add_lt_add_iff_right, Nat.add_right_cancel_iff]

/-- Whatever is pushed, all that is written are words, and as many tokens are written as
were pushed.  Decoding gives back what was pushed exactly if it was pushed in order. -/
theorem decode_pushed_iff_in_order {pushes : List Push}
    (hpushes : ∀ push ∈ pushes, push.Admissible) :
    (∀ k ≤ pushes.length,
      (({} : DeltaWriter).pushAll (pushes.take k)).FitsWords ∧
      (({} : DeltaWriter).pushAll (pushes.take k)).size = k) ∧
    (decode (({} : DeltaWriter).pushAll pushes).data = .ok (pushes.map Push.token) ↔
      pushes.Pairwise fun a b => a.line < b.line ∨ a.line = b.line ∧ a.start ≤ b.start) := by
  constructor
  · intro k hk
    have hfront : ∀ push ∈ pushes.take k, push.Admissible :=
      fun push hpush => hpushes push (List.mem_of_mem_take hpush)
    refine ⟨DeltaWriter.fitsWords_empty.pushAll hfront, ?_⟩
    rw [DeltaWriter.size_pushAll, List.length_take_of_le hk]
    exact Nat.zero_add k
  · have hwords := (DeltaWriter.fitsWords_empty.pushAll hpushes).data
    rw [DeltaWriter.data_pushAll hpushes] at hwords ⊢
    have hbare : (pushes.map Push.token).map Token.bare = pushes.map Push.token := by
      rw [List.map_map]
      rfl
    have hlines : ∀ token ∈ pushes.map Push.token, 1 ≤ token.position.line :=
      List.forall_mem_map.2 fun push _ => Nat.le_add_left 1 push.line
    have hfits : ∀ token ∈ pushes.map Push.token, token.FitsWords :=
      List.forall_mem_map.2 fun push hpush => (hpushes push hpush).fitsWords_token
    rw [← pairwise_notAfter_map_token_iff, ← decode_relative_eq_ok_iff hlines hfits hwords, hbare]

/-- Two tokens at one position, and one at the last position that is a word. -/
theorem decode_pushed_iff_in_order_last_words :
    let pushes : List Push :=
      [⟨0, 4, 3, 0⟩, ⟨0, 4, 2, 16⟩, ⟨4294967294, 4294967295, 4294967295, 9⟩]
    (∀ push ∈ pushes, push.Admissible) ∧
    (pushes.Pairwise fun a b => a.line < b.line ∨ a.line = b.line ∧ a.start ≤ b.start) ∧
    (({} : DeltaWriter).pushAll (pushes.take 2)).size = 2 ∧
    (({} : DeltaWriter).pushAll pushes).FitsWords ∧
    decode (({} : DeltaWriter).pushAll pushes).data = .ok
      [⟨.keyword, "", ⟨1, 4⟩, 3⟩, ⟨.hardwareQubit, "", ⟨1, 4⟩, 2⟩,
       ⟨.punctuation, "", ⟨4294967295, 4294967295⟩, 4294967295⟩] := by
  intro pushes
  have hbounds : ∀ push ∈ pushes, push.line ≤ wordBound - 2 ∧ push.start < wordBound ∧
      push.length < wordBound ∧ push.tokenType < 17 := by
    decide
  have hpushes : ∀ push ∈ pushes, push.Admissible := by
    intro push hpush
    obtain ⟨hline, hstart, hlength, htype⟩ := hbounds push hpush
    exact ⟨hline, hstart, hlength, htype⟩
  have horder : pushes.Pairwise
      fun a b => a.line < b.line ∨ a.line = b.line ∧ a.start ≤ b.start := by
    decide
  obtain ⟨hwritten, hdecoded⟩ := decode_pushed_iff_in_order hpushes
  exact ⟨hpushes, horder, (hwritten 2 (by decide)).2, (hwritten 3 (by decide)).1,
    hdecoded.2 horder⟩

/-- After a token before the last one the reader is a line too far, and may be led past
the words. -/
example : let pushes : List Push := [⟨5, 9, 1, 2⟩, ⟨4, 3, 1, 2⟩, ⟨5, 9, 1, 2⟩]
    decode (({} : DeltaWriter).pushAll pushes).data = .ok
      [⟨.identifier, "", ⟨6, 9⟩, 1⟩, ⟨.identifier, "", ⟨6, 9⟩, 1⟩,
       ⟨.identifier, "", ⟨7, 9⟩, 1⟩] ∧
    decode (({} : DeltaWriter).pushAll (pushes ++ [⟨4294967294, 0, 1, 2⟩])).data =
      .error .overflow :=
  ⟨rfl, rfl⟩

end QasmHighlight
