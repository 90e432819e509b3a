import Mathlib.Order.Bounds.Basic
import QasmHighlight.Proofs.Token.History

/-!
# What the tables of the lookahead hold

The tables are filled in one pass each, and a search through the lexemes that
follow gives the same answers.  Here the answers are told without a pass and
without a search.  The next lexeme is the one at the least place after, comments
aside.  Two parentheses are partners when what stands between them is balanced and
holds no semicolon and no brace.  Nothing before or behind them counts: neither a
parenthesis that is left open nor one too many that closes keeps another pair from
being found.
-/

namespace QasmHighlight

/-- The places after `place` with a lexeme that is no comment. -/
def significantAfter (lexemes : List Lexeme) (place : Nat) : Set Nat :=
  {j | place < j ∧ ∃ lexeme, lexemes[j]? = some lexeme ∧ lexeme.kind ≠ .comment}

/-- The lexemes strictly between two places. -/
def lexemesBetween (lexemes : List Lexeme) (i j : Nat) : List Lexeme :=
  (lexemes.take j).drop (i + 1)

/-- The parenthesis that opens at `i` closes at `j`. -/
structure Partners (lexemes : List Lexeme) (i j : Nat) : Prop where
  lt : i < j
  opens : ∃ lexeme, lexemes[i]? = some lexeme ∧ lexeme.kind = .punctuation .openParen
  closes : ∃ lexeme, lexemes[j]? = some lexeme ∧ lexeme.kind = .punctuation .closeParen
  within : ∀ lexeme ∈ lexemesBetween lexemes i j, lexeme.isBoundary = false
  balanced : Balanced .openParen .closeParen (lexemesBetween lexemes i j)

def OperandAt (lexemes : List Lexeme) (place : Nat) : Prop :=
  ∃ lexeme, lexemes[place]? = some lexeme ∧ lexeme.isOperand = true

/-! ## The least place -/

section

variable {lexemes : List Lexeme} {place j : Nat}

theorem isLeast_significantAfter
    (hfound : significantFrom (place + 1) (lexemes.drop (place + 1)) = some j) :
    IsLeast (significantAfter lexemes place) j := by
  obtain ⟨k, hindex, rfl⟩ := Option.map_eq_some_iff.1 hfound
  obtain ⟨hk, hsignificant, hcomments⟩ := List.findIdx?_eq_some_iff_getElem.1 hindex
  constructor
  · refine ⟨by omega, (lexemes.drop (place + 1))[k], ?_, ?_⟩
    · rw [← List.getElem?_drop, List.getElem?_eq_getElem hk]
    · simpa [Lexeme.isComment] using hsignificant
  · rintro other ⟨hother, lexeme, hlexeme, hkind⟩
    by_contra hless
    have hbefore : other - (place + 1) < k := by omega
    have hsame : (lexemes.drop (place + 1))[other - (place + 1)]? = some lexeme := by
      rw [List.getElem?_drop, Nat.add_sub_cancel' hother, hlexeme]
    obtain ⟨_, hget⟩ := List.getElem?_eq_some_iff.1 hsame
    apply hcomments _ hbefore
    rw [hget]
    simpa [Lexeme.isComment] using hkind

theorem significantAfter_eq_empty
    (hnone : significantFrom (place + 1) (lexemes.drop (place + 1)) = none) :
    significantAfter lexemes place = ∅ := by
  have hcomments := List.findIdx?_eq_none_iff.1 (Option.map_eq_none_iff.1 hnone)
  apply Set.eq_empty_of_forall_notMem
  rintro other ⟨hother, lexeme, hlexeme, hkind⟩
  have hmem : lexeme ∈ lexemes.drop (place + 1) := by
    apply List.mem_of_getElem? (i := other - (place + 1))
    rw [List.getElem?_drop, Nat.add_sub_cancel' hother, hlexeme]
  have hcomment := hcomments lexeme hmem
  exact hkind (by simpa [Lexeme.isComment] using hcomment)

theorem Lookahead.nextAt?_eq_none_iff :
    (ofLexemes lexemes).nextAt? place = none ↔ significantAfter lexemes place = ∅ := by
  rw [nextAt?_ofLexemes]
  constructor
  · exact significantAfter_eq_empty
  · intro hempty
    by_contra hsome
    obtain ⟨j, hfound⟩ := Option.ne_none_iff_exists'.1 hsome
    have hmem := (isLeast_significantAfter hfound).1
    rw [hempty] at hmem
    exact hmem

theorem Lookahead.nextAt?_eq_some_iff :
    (ofLexemes lexemes).nextAt? place = some j ↔ IsLeast (significantAfter lexemes place) j := by
  rw [nextAt?_ofLexemes]
  constructor
  · exact isLeast_significantAfter
  · intro hleast
    cases hfound : significantFrom (place + 1) (lexemes.drop (place + 1)) with
    | none =>
        have hmem := hleast.1
        rw [significantAfter_eq_empty hfound] at hmem
        cases hmem
    | some k => rw [(isLeast_significantAfter hfound).unique hleast]

end

/-! ## Partners -/

section

variable {lexemes : List Lexeme} {i j : Nat}

private theorem drop_succ_eq_lexemesBetween_append {closing : Lexeme} (hij : i < j)
    (hclosing : lexemes[j]? = some closing) :
    lexemes.drop (i + 1) = lexemesBetween lexemes i j ++ closing :: lexemes.drop (j + 1) := by
  obtain ⟨hj, hget⟩ := List.getElem?_eq_some_iff.1 hclosing
  have hrest : (lexemes.drop (i + 1)).drop (j - (i + 1)) = closing :: lexemes.drop (j + 1) := by
    rw [List.drop_drop, Nat.add_sub_cancel' hij, List.drop_eq_getElem_cons hj, hget]
  rw [lexemesBetween, List.drop_take, ← hrest, List.take_append_drop]

private theorem lexemesBetween_of_drop_eq {inside rest : List Lexeme} {closing : Lexeme}
    (hdrop : lexemes.drop (i + 1) = inside ++ closing :: rest) :
    lexemesBetween lexemes i (i + 1 + inside.length) = inside ∧
      lexemes[i + 1 + inside.length]? = some closing := by
  constructor
  · rw [lexemesBetween, List.drop_take, Nat.add_sub_cancel_left, hdrop, List.take_left]
  · rw [← List.getElem?_drop, hdrop]
    simp

theorem partners_of_afterPartner? {lexeme : Lexeme} (hlexeme : lexemes[i]? = some lexeme)
    (hopen : lexeme.kind = .punctuation .openParen) {rest : List Lexeme}
    (hafter : afterPartner? 0 (lexemes.drop (i + 1)) = some rest) :
    Partners lexemes i (lexemes.length - 1 - rest.length) := by
  obtain ⟨inside, closing, hdrop, hclosing, hsettles⟩ := exists_settles_of_afterPartner? hafter
  have hlength := congrArg List.length hdrop
  simp only [List.length_drop, List.length_append, List.length_cons] at hlength
  have hplace : lexemes.length - 1 - rest.length = i + 1 + inside.length := by omega
  obtain ⟨hbetween, hget⟩ := lexemesBetween_of_drop_eq hdrop
  obtain ⟨hwithin, hbalanced⟩ := settles_zero_iff.1 hsettles
  rw [hplace]
  refine ⟨by omega, ⟨lexeme, hlexeme, hopen⟩, ⟨closing, hget, hclosing⟩, ?_, ?_⟩
  · rwa [hbetween]
  · rwa [hbetween]

theorem Partners.afterPartner? (hpartners : Partners lexemes i j) :
    afterPartner? 0 (lexemes.drop (i + 1)) = some (lexemes.drop (j + 1)) := by
  obtain ⟨hij, _, ⟨closing, hget, hclosing⟩, hwithin, hbalanced⟩ := hpartners
  have hsettles := settles_zero_iff.2 ⟨hwithin, hbalanced⟩
  rw [drop_succ_eq_lexemesBetween_append hij hget]
  exact hsettles.afterPartner? hclosing _

private theorem Lookahead.size_close : (ofLexemes lexemes).close.size = lexemes.length := by
  have hrun := (Pairing.consistent_empty lexemes.length).run lexemes
  exact hrun.size_eq

private theorem Lookahead.size_next : (ofLexemes lexemes).next.size = lexemes.length := by
  simp [ofLexemes, nextSignificant_eq]

theorem Lookahead.closeAt?_of_getElem? {lexeme : Lexeme} (hlexeme : lexemes[i]? = some lexeme) :
    (ofLexemes lexemes).closeAt? i =
      if lexeme.kind = .punctuation .openParen then
        (afterPartner? 0 (lexemes.drop (i + 1))).map fun rest => lexemes.length - 1 - rest.length
      else none := by
  obtain ⟨hsplit, hlength⟩ := eq_take_append_cons_drop hlexeme
  have hclose := closeAt?_ofLexemes (lexemes.take i) (lexemes.drop (i + 1)) lexeme
  obtain ⟨hi, _⟩ := List.getElem?_eq_some_iff.1 hlexeme
  have hcount : i + (lexemes.drop (i + 1)).length = lexemes.length - 1 := by
    rw [List.length_drop]
    omega
  rwa [← hsplit, hlength, hcount] at hclose

theorem Lookahead.closeAt?_eq_some_iff :
    (ofLexemes lexemes).closeAt? i = some j ↔ Partners lexemes i j := by
  constructor
  · intro hfound
    cases hlexeme : lexemes[i]? with
    | none =>
        have hbeyond : (ofLexemes lexemes).close.size ≤ i := by
          rw [size_close]
          exact List.getElem?_eq_none_iff.1 hlexeme
        rw [closeAt?, Array.getElem?_eq_none hbeyond] at hfound
        cases hfound
    | some lexeme =>
        rw [closeAt?_of_getElem? hlexeme] at hfound
        split at hfound
        · next hopen =>
          obtain ⟨rest, hafter, rfl⟩ := Option.map_eq_some_iff.1 hfound
          exact partners_of_afterPartner? hlexeme hopen hafter
        · cases hfound
  · intro hpartners
    obtain ⟨lexeme, hlexeme, hopen⟩ := hpartners.opens
    obtain ⟨closing, hclosing, _⟩ := hpartners.closes
    obtain ⟨hj, _⟩ := List.getElem?_eq_some_iff.1 hclosing
    rw [closeAt?_of_getElem? hlexeme, if_pos hopen, hpartners.afterPartner?, Option.map_some,
      List.length_drop]
    congr 1
    omega

end

/-! ## Gate calls -/

theorem Lookahead.isOperandAt_iff {lexemes : List Lexeme} {place : Nat} :
    (ofLexemes lexemes).isOperandAt place = true ↔ OperandAt lexemes place := by
  unfold isOperandAt ofLexemes OperandAt
  rw [List.getElem?_toArray, Option.any_eq_true]

theorem Lookahead.headsCallAt_iff_tables {ahead : Lookahead} {place : Nat} :
    ahead.headsCallAt place = true ↔
      ∃ next, ahead.nextAt? place = some next ∧
        (ahead.isOperandAt next = true ∨
          ∃ close after, ahead.closeAt? next = some close ∧ ahead.nextAt? close = some after ∧
            ahead.isOperandAt after = true) := by
  unfold headsCallAt
  cases ahead.nextAt? place with
  | none => simp
  | some next =>
      simp only [Bool.or_eq_true, Option.any_eq_true, Option.bind_eq_some_iff,
        Option.some.injEq, exists_eq_left']
      refine or_congr_right ⟨?_, ?_⟩
      · rintro ⟨after, ⟨close, hclose, hafter⟩, hoperand⟩
        exact ⟨close, after, hclose, hafter, hoperand⟩
      · rintro ⟨close, after, hclose, hafter, hoperand⟩
        exact ⟨after, ⟨close, hclose, hafter⟩, hoperand⟩

/-- The tables have an entry for every lexeme.  One holds the least place after it
whose lexeme is no comment, the other the partner of an open parenthesis, and a
name heads a gate call when an operand comes next, or behind the partner of a
parenthesis that comes next. -/
theorem lookahead_holds_least_and_partners (lexemes : List Lexeme) :
    let ahead := Lookahead.ofLexemes lexemes
    (ahead.next.size = lexemes.length ∧ ahead.close.size = lexemes.length) ∧
    (∀ i j, ahead.nextAt? i = some j ↔ IsLeast (significantAfter lexemes i) j) ∧
    (∀ i, ahead.nextAt? i = none ↔ significantAfter lexemes i = ∅) ∧
    (∀ i j, ahead.closeAt? i = some j ↔ Partners lexemes i j) ∧
    ∀ i, ahead.headsCallAt i = true ↔
      ∃ next, IsLeast (significantAfter lexemes i) next ∧
        (OperandAt lexemes next ∨
          ∃ close after, Partners lexemes next close ∧
            IsLeast (significantAfter lexemes close) after ∧ OperandAt lexemes after) := by
  intro ahead
  refine ⟨⟨Lookahead.size_next, Lookahead.size_close⟩, fun _ _ => Lookahead.nextAt?_eq_some_iff,
    fun _ => Lookahead.nextAt?_eq_none_iff, fun _ _ => Lookahead.closeAt?_eq_some_iff, ?_⟩
  intro i
  simp only [ahead, Lookahead.headsCallAt_iff_tables, Lookahead.nextAt?_eq_some_iff,
    Lookahead.closeAt?_eq_some_iff, Lookahead.isOperandAt_iff]

/-- The first parenthesis is left open by the semicolon, and the last closes none. -/
example :
    matchingClose ([.openParen, .openParen, .closeParen, .semicolon, .closeParen].map
      fun mark => ⟨.punctuation mark, "", ⟨1, 0⟩, 1⟩) = #[none, some 2, none, none, none] := by
  decide

end QasmHighlight
