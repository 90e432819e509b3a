import QasmHighlight.Proofs.Wire.Canonical

/-!
# Lists of tokens with one wire form

Two lists of tokens are encoded alike exactly if the tokens that can be shown
are the same in both, apart from their contents, and those at one position stand
in the same order.  How tokens at different positions are mixed does not matter,
since they are sorted, and what cannot be shown does not matter, since it is
dropped before any distance is taken.  Both facts come from one description of a
list: the row of tokens, without contents, that it has at each position.
-/

namespace QasmHighlight

open Text

/-- `others` has the tokens of `tokens`, apart from their contents, in some order
that keeps the tokens at one position in a row: `order` is `others` with the
places that its tokens have in `tokens`. -/
def Rearranged (tokens others : List Token) : Prop :=
  ∃ order : List (Token × Nat),
    order.Perm tokens.zipIdx ∧
    others.map Token.bare = order.map (·.1.bare) ∧
    order.Pairwise fun a b => a.1.position = b.1.position → a.2 < b.2

/-- The tokens at a position in a row, without their contents. -/
def rowAt (p : Position) (tokens : List Token) : List Token :=
  (tokens.filter (·.position = p)).map Token.bare

theorem rowAt_eq_filter (p : Position) (tokens : List Token) :
    rowAt p tokens = (tokens.map Token.bare).filter (·.position = p) := by
  rw [rowAt, List.filter_map]
  rfl

private theorem rowAt_append (p : Position) (a b : List Token) :
    rowAt p (a ++ b) = rowAt p a ++ rowAt p b := by
  simp only [rowAt, List.filter_append, List.map_append]

private theorem rowAt_cons_self (token : Token) (rest : List Token) :
    rowAt token.position (token :: rest) = token.bare :: rowAt token.position rest := by
  simp [rowAt]

private theorem rowAt_cons_of_ne {token : Token} {p : Position} (hp : token.position ≠ p)
    (rest : List Token) : rowAt p (token :: rest) = rowAt p rest := by
  simp [rowAt, hp]

theorem rowAt_eq_nil_iff {tokens : List Token} {p : Position} :
    rowAt p tokens = [] ↔ ∀ token ∈ tokens, token.position ≠ p := by
  simp [rowAt]

private theorem exists_append_of_rowAt_eq_cons {tokens : List Token} {p : Position} {head : Token}
    {row : List Token} (hrow : rowAt p tokens = head :: row) :
    ∃ before token after, tokens = before ++ token :: after ∧
      token.position = p ∧ token.bare = head ∧ rowAt p before = [] := by
  obtain ⟨token, rest, hfilter, hhead, _⟩ := List.map_eq_cons_iff.1 hrow
  obtain ⟨before, after, htokens, hbefore, hposition, _⟩ := List.filter_eq_cons_iff.1 hfilter
  refine ⟨before, token, after, htokens, of_decide_eq_true hposition, hhead, ?_⟩
  rw [rowAt_eq_nil_iff]
  intro earlier hearlier
  simpa using hbefore earlier hearlier

/-! ## Rearranging keeps the rows -/

private theorem pairwise_zipIdx_snd_lt (tokens : List Token) :
    tokens.zipIdx.Pairwise fun a b => a.2 < b.2 := by
  rw [← List.pairwise_map (f := Prod.snd), List.zipIdx_map_snd]
  exact List.pairwise_lt_range'

/-- At one position both orders are those of the places, so they are one order. -/
theorem Rearranged.rowAt_eq {tokens others : List Token} (hrearranged : Rearranged tokens others)
    (p : Position) : rowAt p others = rowAt p tokens := by
  obtain ⟨order, hperm, hothers, hkeeps⟩ := hrearranged
  have hplaced : order.filter (·.1.position = p) = tokens.zipIdx.filter (·.1.position = p) := by
    have horder : (order.filter (·.1.position = p)).Pairwise fun a b => a.2 < b.2 := by
      rw [List.pairwise_filter]
      apply hkeeps.imp
      intro a b hab ha hb
      exact hab ((of_decide_eq_true ha).trans (of_decide_eq_true hb).symm)
    have hplaces := (pairwise_zipIdx_snd_lt tokens).filter (·.1.position = p)
    refine List.Perm.eq_of_pairwise ?_ horder hplaces (hperm.filter _)
    intro a b _ _ hab hba
    exact absurd hab (Nat.lt_asymm hba)
  have hrow := congrArg (List.map (·.1.bare)) hplaced
  have htokens : tokens.zipIdx.map Prod.fst = tokens := List.zipIdx_map_fst 0 tokens
  calc rowAt p others = (order.map (·.1.bare)).filter (·.position = p) := by
        rw [rowAt_eq_filter, hothers]
    _ = (order.filter (·.1.position = p)).map (·.1.bare) := by
        rw [List.filter_map]
        rfl
    _ = (tokens.zipIdx.filter (·.1.position = p)).map (·.1.bare) := hrow
    _ = ((tokens.zipIdx.map Prod.fst).filter (·.position = p)).map Token.bare := by
        rw [List.filter_map, List.map_map]
        rfl
    _ = rowAt p tokens := by rw [htokens, rowAt]

/-- Tokens with the rows of `placed` are found there one by one: the next is the
first one left of the row at its position. -/
theorem exists_order {others : List Token} {placed : List (Token × Nat)}
    (hplaces : placed.Pairwise fun a b => a.2 < b.2)
    (hrows : ∀ p, rowAt p others = rowAt p (placed.map Prod.fst)) :
    ∃ order : List (Token × Nat),
      order.Perm placed ∧
      others.map Token.bare = order.map (·.1.bare) ∧
      order.Pairwise fun a b => a.1.position = b.1.position → a.2 < b.2 := by
  induction others generalizing placed with
  | nil =>
      have hempty : placed = [] := by
        apply List.eq_nil_iff_forall_not_mem.2
        intro x hx
        exact rowAt_eq_nil_iff.1 (hrows x.1.position).symm x.1 (List.mem_map_of_mem hx) rfl
      subst hempty
      exact ⟨[], .refl _, rfl, .nil⟩
  | cons other rest ih =>
      have hrow := hrows other.position
      rw [rowAt_cons_self] at hrow
      obtain ⟨front, token, back, hplaced, hposition, hbare, hfront⟩ :=
        exists_append_of_rowAt_eq_cons hrow.symm
      obtain ⟨before, later, rfl, rfl, hlater⟩ := List.map_eq_append_iff.1 hplaced
      obtain ⟨x, after, rfl, rfl, rfl⟩ := List.map_eq_cons_iff.1 hlater
      have hrest : ∀ p, rowAt p rest = rowAt p ((before ++ after).map Prod.fst) := by
        intro p
        have hp := hrows p
        rw [hplaced, rowAt_append] at hp
        rw [List.map_append, rowAt_append]
        by_cases hhere : other.position = p
        · subst hhere
          rw [rowAt_cons_self, hfront, List.nil_append, ← hposition, rowAt_cons_self] at hp
          rw [hfront, List.nil_append, ← hposition]
          exact (List.cons.inj hp).2
        · have hthere : x.1.position ≠ p := fun h => hhere (hposition.symm.trans h)
          rwa [rowAt_cons_of_ne hhere, rowAt_cons_of_ne hthere] at hp
      have hfewer : (before ++ after).Pairwise fun a b => a.2 < b.2 :=
        hplaces.sublist (List.Sublist.append_left (List.sublist_cons_self x after) before)
      obtain ⟨order, hperm, hbares, hkeeps⟩ := ih hfewer hrest
      refine ⟨x :: order, ?_, ?_, ?_⟩
      · exact (hperm.cons x).trans List.perm_middle.symm
      · rw [List.map_cons, List.map_cons, hbares, hbare]
      · rw [List.pairwise_cons]
        refine ⟨?_, hkeeps⟩
        intro y hy hsame
        rcases List.mem_append.1 (hperm.mem_iff.1 hy) with hbefore | hafter
        · have hne := rowAt_eq_nil_iff.1 hfront y.1 (List.mem_map_of_mem hbefore)
          exact absurd (hsame.symm.trans hposition) hne
        · have hxafter := (List.pairwise_append.1 hplaces).2.1
          exact (List.pairwise_cons.1 hxafter).1 y hafter

theorem rearranged_iff_rowAt_eq {tokens others : List Token} :
    Rearranged tokens others ↔ ∀ p, rowAt p others = rowAt p tokens := by
  constructor
  · intro hrearranged p
    exact hrearranged.rowAt_eq p
  · intro hrows
    apply exists_order (pairwise_zipIdx_snd_lt tokens)
    intro p
    rw [hrows, List.zipIdx_map_fst]

/-! ## The wire form as what the rows decide -/

theorem StablySorted.map_bare {tokens sorted : List Token} (hsorted : StablySorted tokens sorted) :
    StablySorted (tokens.map Token.bare) (sorted.map Token.bare) := by
  constructor
  · rw [List.pairwise_map]
    exact hsorted.in_order
  · intro p
    rw [← rowAt_eq_filter, ← rowAt_eq_filter, rowAt, hsorted.same_at, rowAt]

theorem map_bare_arranged_eq_iff {tokens others : List Token} :
    (arranged tokens).map Token.bare = (arranged others).map Token.bare ↔
      ∀ p, rowAt p (others.filter Token.isShown) = rowAt p (tokens.filter Token.isShown) := by
  have hrow : ∀ (list : List Token) (p : Position),
      rowAt p (list.filter Token.isShown) = rowAt p (arranged list) := by
    intro list p
    rw [rowAt, rowAt, filter_position_arranged]
  constructor
  · intro harranged p
    rw [hrow, hrow, rowAt_eq_filter, rowAt_eq_filter, harranged]
  · intro hrows
    have hsorted := (stablySorted_arranged tokens).map_bare
    have hother := (stablySorted_arranged others).map_bare
    apply StablySorted.unique hother
    refine ⟨hsorted.in_order, ?_⟩
    intro p
    rw [hsorted.same_at, ← rowAt_eq_filter, ← rowAt_eq_filter, hrows]

theorem relative_map_bare (line start : Nat) (tokens : List Token) :
    relative line start (tokens.map Token.bare) = relative line start tokens := by
  induction tokens generalizing line start with
  | nil => rfl
  | cons token rest ih =>
      rw [List.map_cons, relative, relative, ih]
      rfl

theorem absolute_relative {line start : Nat} {tokens : List Token}
    (hlines : ∀ token ∈ tokens, 1 ≤ token.position.line)
    (hfirst : ∀ token ∈ tokens,
      (⟨line + 1, start⟩ : Position).notAfter token.position = true)
    (hsorted : tokens.Pairwise fun a b => a.position.notAfter b.position = true) :
    absolute line start (relative line start tokens) = tokens.map Token.bare := by
  induction tokens generalizing line start with
  | nil => rfl
  | cons token rest ih =>
      rw [List.forall_mem_cons] at hlines hfirst
      rw [List.pairwise_cons] at hsorted
      rw [relative, absolute, Quintuple.tokenAfter_ofToken hlines.1 hfirst.1,
        Quintuple.lineAfter_ofToken hlines.1 hfirst.1, Quintuple.startAfter_ofToken hfirst.1,
        List.map_cons, ih hlines.2 ?_ hsorted.2]
      intro later hlater
      rw [Nat.sub_add_cancel hlines.1]
      exact hsorted.1 later hlater

theorem absolute_encode (tokens : List Token) :
    absolute 0 0 (encode tokens) = (arranged tokens).map Token.bare := by
  have hlines : ∀ token ∈ arranged tokens, 1 ≤ token.position.line := by
    intro token htoken
    exact (Token.isShown_iff.1 (mem_of_mem_arranged htoken).2).1
  rw [encode_eq_relative]
  apply absolute_relative hlines
  · intro token htoken
    have hline := hlines token htoken
    rw [Position.notAfter_iff]
    dsimp only
    omega
  · exact pairwise_arranged tokens

theorem encode_eq_iff_rowAt_eq {tokens others : List Token} :
    encode tokens = encode others ↔
      ∀ p, rowAt p (others.filter Token.isShown) = rowAt p (tokens.filter Token.isShown) := by
  rw [← map_bare_arranged_eq_iff]
  constructor
  · intro hsame
    rw [← absolute_encode, ← absolute_encode, hsame]
  · intro harranged
    rw [encode_eq_relative, encode_eq_relative, ← relative_map_bare, harranged, relative_map_bare]

/-! ## Main statement -/

/-- Among tokens at different positions a row holds no two, so it has one order
only. -/
theorem rowAt_eq_of_perm {tokens others : List Token}
    (hdistinct : tokens.Pairwise fun a b => a.position ≠ b.position)
    (hperm : (others.map Token.bare).Perm (tokens.map Token.bare)) (p : Position) :
    rowAt p others = rowAt p tokens := by
  have hrow : (rowAt p others).Perm (rowAt p tokens) := by
    rw [rowAt_eq_filter, rowAt_eq_filter]
    exact hperm.filter _
  have halone : (rowAt p tokens).Pairwise fun _ _ => False := by
    rw [rowAt, List.pairwise_map, List.pairwise_filter]
    apply hdistinct.imp
    intro a b hab ha hb
    exact hab ((of_decide_eq_true ha).trans (of_decide_eq_true hb).symm)
  have hother : (rowAt p others).Pairwise fun _ _ => False :=
    hrow.symm.pairwise halone fun h => h
  exact hrow.eq_of_pairwise (fun _ _ _ _ h _ => h.elim) hother halone

/-- Two lists of tokens have one wire form exactly if those of their tokens that
have a line and a length are a rearrangement of each other, apart from contents,
that keeps the order of tokens at one position. -/
theorem encode_eq_iff_rearranged :
    (∀ tokens others : List Token, encode tokens = encode others ↔
      Rearranged (tokens.filter fun token => 1 ≤ token.position.line ∧ 0 < token.length)
        (others.filter fun token => 1 ≤ token.position.line ∧ 0 < token.length)) ∧
    (∀ tokens others : List Token,
      (tokens.filter fun token => 1 ≤ token.position.line ∧ 0 < token.length).Pairwise
        (fun a b => a.position ≠ b.position) →
      ((others.filter fun token => 1 ≤ token.position.line ∧ 0 < token.length).map
        Token.bare).Perm
          ((tokens.filter fun token => 1 ≤ token.position.line ∧ 0 < token.length).map
            Token.bare) →
      encode tokens = encode others) ∧
    ∀ before invalid after : List Token,
      (∀ token ∈ invalid, ¬ (1 ≤ token.position.line ∧ 0 < token.length)) →
      encode (before ++ invalid ++ after) = encode (before ++ after) := by
  simp only [← filter_isShown]
  refine ⟨?_, ?_, ?_⟩
  · intro tokens others
    rw [rearranged_iff_rowAt_eq, encode_eq_iff_rowAt_eq]
  · intro tokens others hdistinct hperm
    rw [encode_eq_iff_rowAt_eq]
    exact rowAt_eq_of_perm hdistinct hperm
  · intro before invalid after hinvalid
    have hdropped : invalid.filter Token.isShown = [] := by
      rw [List.filter_eq_nil_iff]
      intro token htoken
      rw [Token.isShown_iff]
      exact hinvalid token htoken
    rw [encode_eq_iff_rowAt_eq]
    intro p
    simp only [List.filter_append, hdropped, List.append_nil]

/-- Two tokens at one position keep their order around a third, two at different
positions change places, and two that cannot be shown are put in between. -/
theorem encode_eq_iff_rearranged_around_tie :
    let shown : Token → Bool := fun token => 1 ≤ token.position.line ∧ 0 < token.length
    let bit : Token := ⟨.keyword, "bit", ⟨2, 3⟩, 3⟩
    let c : Token := ⟨.identifier, "c", ⟨2, 3⟩, 1⟩
    let g : Token := ⟨.gate, "g", ⟨1, 7⟩, 1⟩
    let invalid : List Token := [⟨.comment, "", ⟨1, 7⟩, 0⟩, ⟨.gate, "ghost", ⟨0, 1⟩, 5⟩]
    (Rearranged ([bit, c, g].filter shown) ([bit.bare, g, c].filter shown) ∧
      encode [bit, c, g] = encode [bit.bare, g, c]) ∧
    (([bit, g].filter shown).Pairwise (fun a b => a.position ≠ b.position) ∧
      (([g.bare, bit].filter shown).map Token.bare).Perm
        (([bit, g].filter shown).map Token.bare) ∧
      encode [bit, g] = encode [g.bare, bit]) ∧
    (∀ token ∈ invalid, ¬ (1 ≤ token.position.line ∧ 0 < token.length)) ∧
      encode ([g] ++ invalid ++ [bit, c]) = encode ([g] ++ [bit, c]) := by
  intro shown bit c g invalid
  have hrearranged : Rearranged ([bit, c, g].filter shown) ([bit.bare, g, c].filter shown) := by
    refine ⟨[(bit, 0), (g, 2), (c, 1)], ?_, ?_, ?_⟩ <;> decide
  have hdistinct : ([bit, g].filter shown).Pairwise (fun a b => a.position ≠ b.position) := by
    decide
  have hperm : (([g.bare, bit].filter shown).map Token.bare).Perm
      (([bit, g].filter shown).map Token.bare) := by
    decide
  have hinvalid : ∀ token ∈ invalid, ¬ (1 ≤ token.position.line ∧ 0 < token.length) := by
    decide
  refine ⟨⟨hrearranged, ?_⟩, ⟨hdistinct, hperm, ?_⟩, hinvalid, ?_⟩
  · exact (encode_eq_iff_rearranged.1 _ _).2 hrearranged
  · exact encode_eq_iff_rearranged.2.1 _ _ hdistinct hperm
  · exact encode_eq_iff_rearranged.2.2 [g] invalid [bit, c] hinvalid

end QasmHighlight
