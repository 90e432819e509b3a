import Mathlib.Data.List.TakeWhile
import QasmHighlight.Proofs.Token.Balance

/-!
# The tables of the lookahead against the search

Two tables, each filled in one pass over the lexemes, say for every lexeme which
one comes next, comments aside, and for every open parenthesis where it is closed.
The first pass keeps the place last seen, the second a stack of the parentheses
that are still open.  Both tables give what a search through the lexemes that
follow gives, so a lexeme is classified from the lexemes that follow it and from
nothing else.
-/

namespace QasmHighlight

/-! ## The next lexeme that is no comment -/

/-- The place of the first lexeme that is no comment, when the first lexeme of all
is at `start`. -/
def significantFrom (start : Nat) (lexemes : List Lexeme) : Option Nat :=
  (lexemes.findIdx? (!·.isComment)).map (start + ·)

theorem significantFrom_cons (start : Nat) (lexeme : Lexeme) (rest : List Lexeme) :
    significantFrom start (lexeme :: rest) =
      if lexeme.isComment then significantFrom (start + 1) rest else some start := by
  unfold significantFrom
  rw [List.findIdx?_cons]
  by_cases hcomment : lexeme.isComment = true
  · simp [hcomment, Function.comp_def, Nat.add_comm, Nat.add_left_comm]
  · simp [hcomment]

private theorem foldr_nextSignificant (start : Nat) (lexemes : List Lexeme) :
    ((lexemes.zipIdx start).foldr
      (fun x found => (found.2 :: found.1, if x.1.isComment then found.2 else some x.2))
      (([], none) : List (Option Nat) × Option Nat)) =
      ((List.range lexemes.length).map fun i =>
          significantFrom (start + i + 1) (lexemes.drop (i + 1)),
        significantFrom start lexemes) := by
  induction lexemes generalizing start with
  | nil => rfl
  | cons lexeme rest ih =>
      rw [List.zipIdx_cons, List.foldr_cons, ih, significantFrom_cons]
      simp only [List.length_cons, List.range_succ_eq_map, List.map_cons, List.map_map,
        List.drop_succ_cons, List.drop_zero, Function.comp_def, Nat.add_zero]
      simp only [Nat.add_assoc, Nat.add_comm 1, Nat.succ_eq_add_one]

theorem nextSignificant_eq (lexemes : List Lexeme) :
    nextSignificant lexemes =
      (List.range lexemes.length).map fun i =>
        significantFrom (i + 1) (lexemes.drop (i + 1)) := by
  unfold nextSignificant
  rw [foldr_nextSignificant]
  simp

theorem Lookahead.nextAt?_ofLexemes (lexemes : List Lexeme) (place : Nat) :
    (ofLexemes lexemes).nextAt? place =
      significantFrom (place + 1) (lexemes.drop (place + 1)) := by
  unfold Lookahead.nextAt? Lookahead.ofLexemes
  rw [List.getElem?_toArray, nextSignificant_eq]
  by_cases hplace : place < lexemes.length
  · simp [hplace]
  · have hdrop : lexemes.drop (place + 1) = [] := List.drop_eq_nil_of_le (by omega)
    simp [hplace, hdrop, significantFrom]

/-! ## The parenthesis that closes another -/

namespace Lookahead

theorem closeAt?_ofLexemes (before after : List Lexeme) (lexeme : Lexeme) :
    (ofLexemes (before ++ lexeme :: after)).closeAt? before.length =
      if lexeme.kind = .punctuation .openParen then
        (afterPartner? 0 after).map fun rest => before.length + after.length - rest.length
      else none := by
  have hcount : before.length + 1 + after.length = (before ++ lexeme :: after).length := by
    rw [List.length_append, List.length_cons]
    omega
  have hbefore := (Pairing.consistent_empty (before ++ lexeme :: after).length).run before
  rw [Nat.zero_add] at hbefore
  have hnext := hbefore.step lexeme
  have hrun : (ofLexemes (before ++ lexeme :: after)).close =
      ((((⟨Array.replicate (before ++ lexeme :: after).length none, []⟩ : Pairing).run 0
        before).step lexeme before.length).run (before.length + 1) after).partners := by
    have happend := Pairing.run_append
      ⟨Array.replicate (before ++ lexeme :: after).length none, []⟩ 0 before (lexeme :: after)
    rw [Nat.zero_add, Pairing.run_cons] at happend
    rw [← happend]
    rfl
  unfold closeAt?
  rw [hrun]
  split
  · next hkind =>
    rw [Pairing.step_of_open _ _ hkind] at hnext ⊢
    rw [Pairing.partners_run_of_unclosed hnext after hcount List.getElem?_cons_zero,
      Option.join_some, ← hcount]
    congr 1
    funext rest
    omega
  · next hkind =>
    obtain ⟨hclosed, hnone⟩ := hbefore.step_of_not_open (by omega) hkind
    rw [Pairing.partners_run_of_notMem (Nat.lt_succ_self _) hclosed, hnone]
    rfl

theorem isOperandAt_ofLexemes (before after : List Lexeme) (lexeme : Lexeme) :
    (ofLexemes (before ++ lexeme :: after)).isOperandAt before.length = lexeme.isOperand := by
  simp [isOperandAt, ofLexemes]

/-! ## Gate calls -/

private theorem significantFrom_of_dropWhile_eq_nil {lexemes : List Lexeme}
    (hcomments : lexemes.dropWhile Lexeme.isComment = []) (start : Nat) :
    significantFrom start lexemes = none := by
  rw [List.dropWhile_eq_nil_iff] at hcomments
  unfold significantFrom
  rw [Option.map_eq_none_iff, List.findIdx?_eq_none_iff]
  intro lexeme hlexeme
  simp [hcomments lexeme hlexeme]

theorem significantFrom_of_dropWhile_eq_cons {lexemes more : List Lexeme} {next : Lexeme}
    (hnext : lexemes.dropWhile Lexeme.isComment = next :: more) (start : Nat) :
    significantFrom start lexemes =
      some (start + (lexemes.takeWhile Lexeme.isComment).length) := by
  induction lexemes generalizing start with
  | nil => cases hnext
  | cons lexeme rest ih =>
      rw [significantFrom_cons]
      by_cases hcomment : lexeme.isComment = true
      · rw [List.dropWhile_cons_of_pos hcomment] at hnext
        rw [if_pos hcomment, ih hnext, List.takeWhile_cons_of_pos hcomment, List.length_cons]
        congr 1
        omega
      · rw [if_neg hcomment, List.takeWhile_cons_of_neg hcomment, List.length_nil, Nat.add_zero]

theorem any_isOperandAt_significantFrom (before after : List Lexeme) :
    (significantFrom before.length after).any (ofLexemes (before ++ after)).isOperandAt =
      operandFollows after := by
  unfold operandFollows
  rw [List.find?_not_eq_head?_dropWhile]
  cases hnext : after.dropWhile Lexeme.isComment with
  | nil =>
      rw [significantFrom_of_dropWhile_eq_nil hnext]
      rfl
  | cons next more =>
      have hafter := after.takeWhile_append_dropWhile (p := Lexeme.isComment)
      rw [hnext] at hafter
      have hwhole : before ++ after =
          (before ++ after.takeWhile Lexeme.isComment) ++ next :: more := by
        rw [List.append_assoc, hafter]
      rw [significantFrom_of_dropWhile_eq_cons hnext, Option.any_some, ← List.length_append,
        hwhole, isOperandAt_ofLexemes]
      rfl

theorem any_isOperandAt_closeAt? (before after : List Lexeme) (lexeme : Lexeme) :
    (((ofLexemes (before ++ lexeme :: after)).closeAt? before.length).bind
        (ofLexemes (before ++ lexeme :: after)).nextAt?).any
        (ofLexemes (before ++ lexeme :: after)).isOperandAt =
      (lexeme.kind == .punctuation .openParen && (afterPartner? 0 after).any operandFollows) := by
  rw [closeAt?_ofLexemes]
  by_cases hkind : lexeme.kind = .punctuation .openParen
  · rw [if_pos hkind, hkind]
    cases hfound : afterPartner? 0 after with
    | none => rfl
    | some rest =>
        obtain ⟨inside, closing, rfl, _, _⟩ := exists_settles_of_afterPartner? hfound
        have hplace : before.length + (inside ++ closing :: rest).length - rest.length + 1 =
            (before ++ lexeme :: (inside ++ [closing])).length := by
          simp only [List.length_append, List.length_cons, List.length_nil]
          omega
        have hwhole : before ++ lexeme :: (inside ++ closing :: rest) =
            (before ++ lexeme :: (inside ++ [closing])) ++ rest := by
          simp
        have hoperand :=
          any_isOperandAt_significantFrom (before ++ lexeme :: (inside ++ [closing])) rest
        rw [Option.map_some, Option.bind_some, nextAt?_ofLexemes, hplace, hwhole, List.drop_left,
          hoperand]
        simp
  · simp [hkind]

/-- The tables answer what the search through the lexemes that follow answers. -/
theorem headsCallAt_ofLexemes (before after : List Lexeme) (lexeme : Lexeme) :
    (ofLexemes (before ++ lexeme :: after)).headsCallAt before.length = headsCall after := by
  have hdrop : (before ++ lexeme :: after).drop (before.length + 1) = after := by simp
  unfold headsCallAt headsCall
  rw [nextAt?_ofLexemes, hdrop]
  cases hnext : after.dropWhile Lexeme.isComment with
  | nil => rw [significantFrom_of_dropWhile_eq_nil hnext]
  | cons next more =>
      have hafter := after.takeWhile_append_dropWhile (p := Lexeme.isComment)
      rw [hnext] at hafter
      have hwhole : before ++ lexeme :: after =
          (before ++ lexeme :: after.takeWhile Lexeme.isComment) ++ next :: more := by
        rw [List.append_assoc, List.cons_append, hafter]
      have hplace : before.length + 1 + (after.takeWhile Lexeme.isComment).length =
          (before ++ lexeme :: after.takeWhile Lexeme.isComment).length := by
        simp only [List.length_append, List.length_cons]
        omega
      rw [significantFrom_of_dropWhile_eq_cons hnext, hplace, hwhole]
      simp only [isOperandAt_ofLexemes, any_isOperandAt_closeAt?]

end Lookahead

/-! ## Classes -/

theorem Classified.foldl_step
    (lexemes : List Lexeme) (before after : List Lexeme) (hwhole : before ++ after = lexemes)
    (found : Classified) :
    ((after.zipIdx before.length).foldl
      (fun (found : Classified) x => found.step (Lookahead.ofLexemes lexemes) x.1 x.2)
      found).tokens.toList =
      found.tokens.toList ++
        List.zipWith Lexeme.toToken after (classesFrom found.context after) := by
  induction after generalizing before found with
  | nil => simp
  | cons lexeme rest ih =>
      have hnext : (before ++ [lexeme]) ++ rest = lexemes := by simpa using hwhole
      have hcall := Lookahead.headsCallAt_ofLexemes before rest lexeme
      rw [hwhole] at hcall
      have hrest := ih (before ++ [lexeme]) hnext
        (found.step (Lookahead.ofLexemes lexemes) lexeme before.length)
      rw [List.length_append, List.length_singleton] at hrest
      rw [List.zipIdx_cons, List.foldl_cons, hrest]
      simp [Classified.step, hcall, classesFrom]

/-- Each lexeme gets the class that the lexemes before it and the search through
those after it give. -/
theorem classify_eq_zipWith (lexemes : List Lexeme) :
    classify lexemes = List.zipWith Lexeme.toToken lexemes (classesFrom {} lexemes) := by
  have hrun := Classified.foldl_step lexemes [] lexemes rfl {}
  exact hrun

end QasmHighlight
