import Mathlib.Data.List.Pairwise
import QasmHighlight.Proofs.Wire.RoundTrip

/-!
# Tokens in any order on the wire

Encoding first drops the tokens that cannot be shown and sorts the rest by
position, keeping the order of tokens at one position.  There is exactly one
list that is sorted in this way, so what it is can be said without a sorting
procedure.  After the sort no token is before the last one written.  So no
distance is cut off, and decoding gives back the sorted list without contents,
up to the largest positions that are words.
-/

namespace QasmHighlight

open Text

/-! ## The order of positions -/

theorem Text.Position.notAfter_trans {p q r : Position}
    (hpq : p.notAfter q = true) (hqr : q.notAfter r = true) : p.notAfter r = true := by
  rw [Position.notAfter_iff] at hpq hqr ⊢
  omega

theorem Text.Position.notAfter_total (p q : Position) :
    (p.notAfter q || q.notAfter p) = true := by
  rw [Bool.or_eq_true, Position.notAfter_iff, Position.notAfter_iff]
  omega

theorem Text.Position.notAfter_antisymm {p q : Position}
    (hpq : p.notAfter q = true) (hqp : q.notAfter p = true) : p = q := by
  rw [Position.notAfter_iff] at hpq hqp
  cases p
  cases q
  simp only [Position.mk.injEq] at *
  omega

/-! ## The stable order of tokens -/

/-- `sorted` has the tokens of `tokens` in order of line and column, and those
at one position in the order in which `tokens` has them. -/
structure StablySorted (tokens sorted : List Token) : Prop where
  in_order : sorted.Pairwise fun a b =>
    a.position.line < b.position.line ∨
      a.position.line = b.position.line ∧ a.position.column ≤ b.position.column
  same_at : ∀ p, sorted.filter (·.position = p) = tokens.filter (·.position = p)

namespace StablySorted

variable {tokens sorted : List Token}

theorem mem_iff (hsorted : StablySorted tokens sorted) {token : Token} :
    token ∈ sorted ↔ token ∈ tokens := by
  have hsame := congrArg (token ∈ ·) (hsorted.same_at token.position)
  simpa using hsame

private theorem head_notAfter {a : Token} {rest : List Token}
    (hsorted : StablySorted tokens (a :: rest)) {b : Token} (hb : b ∈ tokens) :
    a.position.notAfter b.position = true := by
  rw [Position.notAfter_iff]
  rcases List.mem_cons.1 (hsorted.mem_iff.2 hb) with rfl | hlater
  · exact .inr ⟨rfl, Nat.le_refl _⟩
  · exact (List.pairwise_cons.1 hsorted.in_order).1 b hlater

private theorem tail {token : Token} (hsorted : StablySorted (token :: tokens) (token :: sorted)) :
    StablySorted tokens sorted := by
  constructor
  · exact hsorted.in_order.of_cons
  · intro p
    have hsame := hsorted.same_at p
    by_cases hp : token.position = p
    · simpa [hp] using hsame
    · simpa [hp] using hsame

theorem antisymm (hsorted : StablySorted tokens sorted) (hback : StablySorted sorted tokens) :
    tokens = sorted := by
  induction sorted generalizing tokens with
  | nil =>
      apply List.eq_nil_iff_forall_not_mem.2
      intro token htoken
      exact List.not_mem_nil (hsorted.mem_iff.2 htoken)
  | cons a rest ih =>
      cases tokens with
      | nil => exact absurd (hsorted.mem_iff.1 List.mem_cons_self) List.not_mem_nil
      | cons b more =>
          have hposition : b.position = a.position := by
            apply Position.notAfter_antisymm
            · exact hback.head_notAfter List.mem_cons_self
            · exact hsorted.head_notAfter List.mem_cons_self
          have hhead : a = b := by
            have hsame := hsorted.same_at a.position
            simp only [hposition, decide_true, List.filter_cons_of_pos] at hsame
            exact (List.cons.inj hsame).1
          subst hhead
          rw [ih hsorted.tail hback.tail]

theorem unique {other : List Token}
    (hsorted : StablySorted tokens sorted) (hother : StablySorted tokens other) :
    other = sorted := by
  apply antisymm
  · exact ⟨hsorted.in_order, fun p => (hsorted.same_at p).trans (hother.same_at p).symm⟩
  · exact ⟨hother.in_order, fun p => (hother.same_at p).trans (hsorted.same_at p).symm⟩

end StablySorted

/-! ## What is encoded -/

theorem arranged_perm (tokens : List Token) :
    (arranged tokens).Perm (tokens.filter Token.isShown) :=
  List.mergeSort_perm _ _

theorem pairwise_arranged (tokens : List Token) :
    (arranged tokens).Pairwise fun a b => a.position.notAfter b.position = true := by
  apply List.pairwise_mergeSort
  · intro a b c
    exact Position.notAfter_trans
  · intro a b
    exact Position.notAfter_total a.position b.position

/-- The tokens at one position are in order before the sort, so the sort keeps them
in a row. -/
theorem filter_position_arranged (tokens : List Token) (p : Position) :
    (arranged tokens).filter (·.position = p) =
      (tokens.filter Token.isShown).filter (·.position = p) := by
  have hlength := ((arranged_perm tokens).filter (·.position = p)).length_eq
  have hordered : ((tokens.filter Token.isShown).filter (·.position = p)).Pairwise
      fun a b => a.position.notAfter b.position = true := by
    apply List.pairwise_of_forall_mem_list
    intro a ha b hb
    have hap := of_decide_eq_true (List.mem_filter.1 ha).2
    have hbp := of_decide_eq_true (List.mem_filter.1 hb).2
    rw [hap, hbp, Position.notAfter_iff]
    exact .inr ⟨rfl, Nat.le_refl _⟩
  have hsublist : ((tokens.filter Token.isShown).filter (·.position = p)).Sublist
      (arranged tokens) := by
    apply List.sublist_mergeSort _ _ hordered List.filter_sublist
    · intro a b c
      exact Position.notAfter_trans
    · intro a b
      exact Position.notAfter_total a.position b.position
  have hfiltered := hsublist.filter (·.position = p)
  rw [List.filter_filter] at hfiltered
  simp only [Bool.and_self] at hfiltered
  exact (hfiltered.eq_of_length hlength.symm).symm

theorem stablySorted_arranged (tokens : List Token) :
    StablySorted (tokens.filter Token.isShown) (arranged tokens) := by
  constructor
  · apply (pairwise_arranged tokens).imp
    intro a b hab
    exact Position.notAfter_iff.1 hab
  · exact filter_position_arranged tokens

theorem mem_of_mem_arranged {tokens : List Token} {token : Token}
    (htoken : token ∈ arranged tokens) : token ∈ tokens ∧ token.isShown = true :=
  List.mem_filter.1 ((arranged_perm tokens).mem_iff.1 htoken)

theorem Token.isShown_iff {token : Token} :
    token.isShown = true ↔ 1 ≤ token.position.line ∧ 0 < token.length := by
  simp only [Token.isShown, Bool.and_eq_true, decide_eq_true_eq]

theorem filter_isShown (tokens : List Token) :
    tokens.filter Token.isShown =
      tokens.filter fun token => 1 ≤ token.position.line ∧ 0 < token.length := by
  apply List.filter_congr
  intro token _
  rw [Bool.eq_iff_iff, Token.isShown_iff, decide_eq_true_iff]

/-- Whatever tokens are encoded, decoding does not overflow.  It gives the tokens
that have a line and a length, sorted by position with those at one position
kept in order, and without their contents. -/
theorem decode_encode_stablySorted
    {tokens : List Token} (hfits : ∀ token ∈ tokens, token.FitsWords) :
    ∃ sorted, decode (encode tokens) = .ok (sorted.map Token.bare) ∧
      ∀ other, other = sorted ↔
        StablySorted (tokens.filter fun token => 1 ≤ token.position.line ∧ 0 < token.length)
          other := by
  refine ⟨arranged tokens, ?_, ?_⟩
  · rw [encode_eq_relative]
    apply decode_relative
    · intro token htoken
      exact (Token.isShown_iff.1 (mem_of_mem_arranged htoken).2).1
    · intro token htoken
      exact hfits token (mem_of_mem_arranged htoken).1
    · exact pairwise_arranged tokens
  · intro other
    rw [← filter_isShown]
    constructor
    · rintro rfl
      exact stablySorted_arranged tokens
    · exact (stablySorted_arranged tokens).unique

/-- Two tokens at one position, one at the last position that is a word, and
tokens without a line or a length. -/
theorem decode_encode_stablySorted_ties :
    let tokens : List Token :=
      [⟨.punctuation, ";", ⟨4294967295, 4294967295⟩, 1⟩, ⟨.keyword, "bit", ⟨2, 3⟩, 3⟩,
       ⟨.identifier, "ghost", ⟨0, 7⟩, 5⟩, ⟨.identifier, "c", ⟨2, 3⟩, 1⟩,
       ⟨.comment, "", ⟨2, 0⟩, 0⟩, ⟨.gate, "g", ⟨2, 1⟩, 4294967295⟩]
    (∀ token ∈ tokens, token.FitsWords) ∧
    decode (encode tokens) = .ok
      [⟨.gate, "", ⟨2, 1⟩, 4294967295⟩, ⟨.keyword, "", ⟨2, 3⟩, 3⟩,
       ⟨.identifier, "", ⟨2, 3⟩, 1⟩, ⟨.punctuation, "", ⟨4294967295, 4294967295⟩, 1⟩] ∧
    ∃ sorted, decode (encode tokens) = .ok (sorted.map Token.bare) ∧
      ∀ other, other = sorted ↔
        StablySorted (tokens.filter fun token => 1 ≤ token.position.line ∧ 0 < token.length)
          other := by
  intro tokens
  have hfits : ∀ token ∈ tokens, token.FitsWords := by
    intro token htoken
    have hbounds : ∀ token ∈ tokens,
        token.position.line < wordBound ∧ token.position.column < wordBound := by
      decide
    exact ⟨(hbounds token htoken).1, (hbounds token htoken).2⟩
  have harranged : arranged tokens =
      [⟨.gate, "g", ⟨2, 1⟩, 4294967295⟩, ⟨.keyword, "bit", ⟨2, 3⟩, 3⟩,
       ⟨.identifier, "c", ⟨2, 3⟩, 1⟩, ⟨.punctuation, ";", ⟨4294967295, 4294967295⟩, 1⟩] := by
    simp [tokens, arranged, Token.isShown, List.mergeSort, Position.notAfter]
  refine ⟨hfits, ?_, decode_encode_stablySorted hfits⟩
  rw [encode, harranged]
  rfl

end QasmHighlight
