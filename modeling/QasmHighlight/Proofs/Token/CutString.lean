import QasmHighlight.Proofs.Token.Statement

/-!
# Strings cut short by a line break

A string that its line break cuts short ends the statement, as a semicolon does:
the lexemes after it get the classes they have after a semicolon.  The lexemes
before it do too, save in one case.  A parenthesis is not closed beyond a
semicolon, but it may be closed beyond a string cut short.  The name before such
a parenthesis then heads a gate call that reaches over the end of its statement.
-/

namespace QasmHighlight

/-! ## Gate calls before the end of the statement -/

theorem Context.step_class_call (context : Context) (lexeme : Lexeme) :
    (context.step lexeme true).1 = (context.step lexeme false).1 ∨
      ((context.step lexeme true).1 = .gate ∧
        ((context.step lexeme false).1 = .identifier ∨
          (context.step lexeme false).1 = .register)) := by
  unfold Context.step
  cases lexeme.kind with
  | word =>
      dsimp only [Context.word]
      cases Vocabulary.reservedClass? lexeme.text with
      | some reservedClass => exact .inl rfl
      | none =>
          dsimp only [Context.name]
          split_ifs <;> simp_all
  | _ => exact .inl rfl

private theorem length_lt_of_afterPartner? {depth : Nat} {lexemes rest : List Lexeme}
    (hfound : afterPartner? depth lexemes = some rest) : rest.length < lexemes.length := by
  obtain ⟨inside, closing, rfl, _, _⟩ := exists_settles_of_afterPartner? hfound
  rw [List.length_append, List.length_cons]
  omega

private theorem headsCall_cons_of_isComment {lexeme : Lexeme} (hcomment : lexeme.isComment = true)
    (rest : List Lexeme) : headsCall (lexeme :: rest) = headsCall rest := by
  unfold headsCall
  rw [List.dropWhile_cons_of_pos hcomment]

private theorem headsCall_cons_of_not_isComment {lexeme : Lexeme}
    (hcomment : ¬ lexeme.isComment = true) (rest : List Lexeme) :
    headsCall (lexeme :: rest) =
      (lexeme.isOperand || (lexeme.kind == .punctuation .openParen &&
        (afterPartner? 0 rest).any operandFollows)) := by
  unfold headsCall
  rw [List.dropWhile_cons_of_neg hcomment]

section

variable {cut semicolon : Lexeme} (hcut : cut.kind = .unterminatedString)
  (hsemicolon : semicolon.kind = .punctuation .semicolon)
include hcut hsemicolon

/-- A parenthesis is closed before the end of the statement, or it is closed beyond
it or not at all. -/
theorem afterPartner?_append_cut (inside after : List Lexeme) (depth : Nat) :
    (∃ rest,
      afterPartner? depth (inside ++ cut :: after) = some (rest ++ cut :: after) ∧
        afterPartner? depth (inside ++ semicolon :: after) = some (rest ++ semicolon :: after)) ∨
      (afterPartner? depth (inside ++ semicolon :: after) = none ∧
        ∀ rest, afterPartner? depth (inside ++ cut :: after) = some rest →
          rest.length < after.length) := by
  have hinert : cut.IsInert := by
    refine ⟨by simp [hcut], by simp [hcut], ?_⟩
    simp [Lexeme.isBoundary, hcut]
  have hboundary : semicolon.isBoundary = true := by simp [Lexeme.isBoundary, hsemicolon]
  induction inside generalizing depth with
  | nil =>
      refine .inr ⟨afterPartner?_of_isBoundary after hboundary depth, ?_⟩
      intro rest hrest
      rw [List.nil_append, afterPartner?_of_isInert after hinert] at hrest
      exact length_lt_of_afterPartner? hrest
  | cons lexeme more ih =>
      rw [List.cons_append, List.cons_append]
      rcases lexeme.paren_cases with hopen | hclose | hstop | hskip
      · rw [afterPartner?_of_open _ hopen, afterPartner?_of_open _ hopen]
        exact ih (depth + 1)
      · cases depth with
        | zero =>
            rw [afterPartner?_zero_of_close _ hclose, afterPartner?_zero_of_close _ hclose]
            exact .inl ⟨more, rfl, rfl⟩
        | succ depth =>
            rw [afterPartner?_succ_of_close _ hclose, afterPartner?_succ_of_close _ hclose]
            exact ih depth
      · rw [afterPartner?_of_isBoundary _ hstop, afterPartner?_of_isBoundary _ hstop]
        exact .inr ⟨rfl, fun rest hrest => by cases hrest⟩
      · rw [afterPartner?_of_isInert _ hskip, afterPartner?_of_isInert _ hskip]
        exact ih depth

theorem operandFollows_append_cut (rest after : List Lexeme) :
    operandFollows (rest ++ cut :: after) = operandFollows (rest ++ semicolon :: after) := by
  unfold operandFollows
  rw [List.find?_append, List.find?_append]
  cases rest.find? (!·.isComment) with
  | some found => rfl
  | none => simp [Lexeme.isComment, Lexeme.isOperand, hcut, hsemicolon]

/-- A name heads a call whether the statement ends in a semicolon or in a string
cut short, unless its parameters are closed beyond that end. -/
theorem headsCall_append_cut (between after : List Lexeme) :
    headsCall (between ++ cut :: after) = headsCall (between ++ semicolon :: after) ∨
      (headsCall (between ++ cut :: after) = true ∧
        headsCall (between ++ semicolon :: after) = false ∧
        ∃ comments opening inside rest,
          between = comments ++ opening :: inside ∧
          (∀ lexeme ∈ comments, Lexeme.isComment lexeme = true) ∧
          opening.kind = .punctuation .openParen ∧
          afterPartner? 0 (inside ++ cut :: after) = some rest ∧
          rest.length < after.length ∧ operandFollows rest = true) := by
  induction between with
  | nil =>
      have hcutCall : headsCall (cut :: after) = false := by
        simp [headsCall, Lexeme.isComment, Lexeme.isOperand, hcut]
      have hsemicolonCall : headsCall (semicolon :: after) = false := by
        simp [headsCall, Lexeme.isComment, Lexeme.isOperand, hsemicolon]
      exact .inl (hcutCall.trans hsemicolonCall.symm)
  | cons next inside ih =>
      rw [List.cons_append, List.cons_append]
      by_cases hcomment : next.isComment = true
      · rw [headsCall_cons_of_isComment hcomment, headsCall_cons_of_isComment hcomment]
        refine ih.imp_right ?_
        rintro ⟨hcall, hnoCall, comments, opening, inside', rest, rfl, hcomments, hfound⟩
        refine ⟨hcall, hnoCall, next :: comments, opening, inside', rest, rfl, ?_, hfound⟩
        exact List.forall_mem_cons.2 ⟨hcomment, hcomments⟩
      · rw [headsCall_cons_of_not_isComment hcomment, headsCall_cons_of_not_isComment hcomment]
        by_cases hopen : next.kind = .punctuation .openParen
        · have hoperand : next.isOperand = false := by simp [Lexeme.isOperand, hopen]
          have hparen : (next.kind == .punctuation .openParen) = true := by simp [hopen]
          rw [hoperand, hparen, Bool.false_or, Bool.false_or, Bool.true_and, Bool.true_and]
          rcases afterPartner?_append_cut hcut hsemicolon inside after 0 with
            ⟨rest, hfound, hfound'⟩ | ⟨hnone, hbeyond⟩
          · rw [hfound, hfound', Option.any_some, Option.any_some]
            exact .inl (operandFollows_append_cut hcut hsemicolon rest after)
          · rw [hnone, Option.any_none]
            cases hcall : (afterPartner? 0 (inside ++ cut :: after)).any operandFollows with
            | false => exact .inl rfl
            | true =>
                obtain ⟨rest, hrest, hfollows⟩ := (Option.any_eq_true _ _).1 hcall
                exact .inr ⟨rfl, rfl, [], next, inside, rest, rfl, by simp, hopen, hrest,
                  hbeyond rest hrest, hfollows⟩
        · have hparen : (next.kind == .punctuation .openParen) = false := by simpa using hopen
          rw [hparen, Bool.false_and, Bool.false_and]
          exact .inl rfl

end

/-! ## Classes around the end of the statement -/

/-- The class of the lexeme at a place. -/
def classAt? (lexemes : List Lexeme) (place : Nat) : Option TokenClass :=
  (classify lexemes)[place]?.map (·.tokenClass)

theorem classAt?_eq_getElem? (lexemes : List Lexeme) (place : Nat) :
    classAt? lexemes place = (classesFrom {} lexemes)[place]? := by
  rw [classAt?, ← List.getElem?_map, map_tokenClass_classify]

theorem classAt?_append_right (before following : List Lexeme) (i : Nat) :
    classAt? (before ++ following) (before.length + i) =
      (classesFrom (contextAfter {} [] before) following)[i]? := by
  rw [← classesAfter_eq_classesFrom]
  simp [classAt?, classesAfter]

theorem classAt?_length (before after : List Lexeme) (lexeme : Lexeme) :
    classAt? (before ++ lexeme :: after) before.length =
      some ((contextAfter {} [] before).step lexeme (headsCall after)).1 :=
  classAt?_append_right before (lexeme :: after) 0

/-- The name at `place` heads a call whose parameters are opened before `limit` and
closed after it. -/
def Lookahead.CallReachesOver (ahead : Lookahead) (place limit : Nat) : Prop :=
  ∃ opening closing, ahead.nextAt? place = some opening ∧ opening < limit ∧
    ahead.closeAt? opening = some closing ∧ limit < closing ∧
    (ahead.nextAt? closing).any ahead.isOperandAt = true

theorem Lookahead.callReachesOver_ofLexemes
    {comments following rest : List Lexeme} {opening : Lexeme}
    (hcomments : ∀ lexeme ∈ comments, lexeme.isComment = true)
    (hopen : opening.kind = .punctuation .openParen)
    (hclosed : afterPartner? 0 following = some rest) (hoperand : operandFollows rest = true)
    (before : List Lexeme) (lexeme : Lexeme) {limit : Nat}
    (hopening : (before ++ lexeme :: comments).length < limit)
    (hbeyond : limit + rest.length < (before ++ lexeme :: comments).length + following.length) :
    (ofLexemes (before ++ lexeme :: (comments ++ opening :: following))).CallReachesOver
      before.length limit := by
  have hcomment : ¬ opening.isComment = true := by simp [Lexeme.isComment, hopen]
  have hdrop : (comments ++ opening :: following).dropWhile Lexeme.isComment =
      opening :: following := by
    rw [List.dropWhile_append_of_pos hcomments, List.dropWhile_cons_of_neg hcomment]
  have htake : (comments ++ opening :: following).takeWhile Lexeme.isComment = comments := by
    rw [List.takeWhile_append_of_pos hcomments, List.takeWhile_cons_of_neg hcomment,
      List.append_nil]
  have hnext : (ofLexemes (before ++ lexeme :: (comments ++ opening :: following))).nextAt?
      before.length = some (before ++ lexeme :: comments).length := by
    have hafter : (before ++ lexeme :: (comments ++ opening :: following)).drop
        (before.length + 1) = comments ++ opening :: following := by
      simp
    rw [nextAt?_ofLexemes, hafter, significantFrom_of_dropWhile_eq_cons hdrop, htake]
    simp [Nat.add_assoc, Nat.add_comm 1]
  have hwhole : before ++ lexeme :: (comments ++ opening :: following) =
      (before ++ lexeme :: comments) ++ opening :: following := by
    rw [List.append_assoc, List.cons_append]
  rw [hwhole] at hnext ⊢
  have hclose := closeAt?_ofLexemes (before ++ lexeme :: comments) following opening
  rw [if_pos hopen, hclosed, Option.map_some] at hclose
  have hfollows := any_isOperandAt_closeAt? (before ++ lexeme :: comments) following opening
  rw [hclose, Option.bind_some, hclosed, Option.any_some, hoperand, Bool.and_true] at hfollows
  refine ⟨_, _, hnext, hopening, hclose, by omega, ?_⟩
  rw [hfollows, hopen]
  rfl

/-- In place of a string cut short a semicolon gives every other lexeme the class it
has, save the name of a gate call whose parameters are closed beyond the string:
with the semicolon it heads no call. -/
theorem class_eq_or_call_reaches_over
    {cut semicolon : Lexeme} (hcut : cut.kind = .unterminatedString)
    (hsemicolon : semicolon.kind = .punctuation .semicolon) (before after : List Lexeme)
    {place : Nat} (hplace : place ≠ before.length) :
    classAt? (before ++ cut :: after) place = classAt? (before ++ semicolon :: after) place ∨
      (place < before.length ∧ classAt? (before ++ cut :: after) place = some .gate ∧
        (classAt? (before ++ semicolon :: after) place = some .identifier ∨
          classAt? (before ++ semicolon :: after) place = some .register) ∧
        (Lookahead.ofLexemes (before ++ cut :: after)).CallReachesOver place before.length) := by
  rcases Nat.lt_or_gt_of_ne hplace with hearlier | hlater
  · obtain ⟨front, lexeme, between, rfl, rfl⟩ : ∃ front lexeme between,
        before = front ++ lexeme :: between ∧ front.length = place := by
      refine ⟨before.take place, before[place], before.drop (place + 1), ?_, ?_⟩
      · rw [List.getElem_cons_drop, List.take_append_drop]
      · rw [List.length_take, Nat.min_eq_left (Nat.le_of_lt hearlier)]
    simp only [List.append_assoc, List.cons_append, classAt?_length]
    rcases headsCall_append_cut hcut hsemicolon between after with hsame |
      ⟨hcall, hnoCall, comments, opening, inside, rest, rfl, hcomments, hopen, hclosed, hbeyond,
        hoperand⟩
    · rw [hsame]
      exact .inl rfl
    · rw [hcall, hnoCall]
      simp only [Option.some.injEq]
      refine ((contextAfter {} [] front).step_class_call lexeme).imp_right ?_
      rintro ⟨hgate, hother⟩
      refine ⟨hearlier, hgate, hother, ?_⟩
      rw [List.append_assoc, List.cons_append]
      apply Lookahead.callReachesOver_ofLexemes hcomments hopen hclosed hoperand front lexeme
      · simp
      · simp only [List.length_append, List.length_cons]
        omega
  · obtain ⟨i, rfl⟩ := Nat.exists_eq_add_of_lt hlater
    have hcontext : contextAfter {} [] (before ++ [cut]) =
        contextAfter {} [] (before ++ [semicolon]) := by
      rw [contextAfter_concat, contextAfter_concat]
      simp [Context.step, Context.punctuation, hcut, hsemicolon]
    have hafter : ∀ lexeme : Lexeme, classAt? (before ++ lexeme :: after) (before.length + i + 1) =
        (classesFrom (contextAfter {} [] (before ++ [lexeme])) after)[i]? := by
      intro lexeme
      rw [← classAt?_append_right]
      simp [Nat.add_right_comm]
    rw [hafter, hafter, hcontext]
    exact .inl rfl

/-- A register that a call beyond the string makes a gate. -/
theorem class_eq_or_call_reaches_over_register :
    (Lookahead.ofLexemes ((scan "qubit r;r(".toList).lexemes ++
      .bare .unterminatedString "\"x" :: (scan ") $0;".toList).lexemes)).CallReachesOver 3
        (scan "qubit r;r(".toList).lexemes.length := by
  have hcut : (Lexeme.bare .unterminatedString "\"x").kind = .unterminatedString := rfl
  have hsemicolon : (Lexeme.bare (.punctuation .semicolon) ";").kind =
      .punctuation .semicolon := rfl
  have hbefore : (scan "qubit r;r(".toList).lexemes =
      [⟨.word, "qubit", ⟨1, 0⟩, 5⟩, ⟨.word, "r", ⟨1, 6⟩, 1⟩,
        ⟨.punctuation .semicolon, ";", ⟨1, 7⟩, 1⟩, ⟨.word, "r", ⟨1, 8⟩, 1⟩,
        ⟨.punctuation .openParen, "(", ⟨1, 9⟩, 1⟩] := by
    decide +kernel
  have hafter : (scan ") $0;".toList).lexemes =
      [⟨.punctuation .closeParen, ")", ⟨1, 0⟩, 1⟩, ⟨.hardwareQubit, "$0", ⟨1, 2⟩, 2⟩,
        ⟨.punctuation .semicolon, ";", ⟨1, 4⟩, 1⟩] := by
    decide +kernel
  have hkeyword : Vocabulary.reservedClass? "qubit" = some .keyword := by decide
  have hdeclares : Vocabulary.role "qubit" = .declaresRegister := by decide
  have hname : Vocabulary.reservedClass? "r" = none := by decide
  have hplace : 3 ≠ (scan "qubit r;r(".toList).lexemes.length := by
    rw [hbefore]
    decide
  have hregister : classAt? ((scan "qubit r;r(".toList).lexemes ++
      .bare (.punctuation .semicolon) ";" :: (scan ") $0;".toList).lexemes) 3 =
        some .register := by
    rw [hbefore, hafter, classAt?_eq_getElem?]
    simp [classesFrom, headsCall, afterPartner?, Context.step, Context.word, Context.name,
      Context.reserved, Context.punctuation, Scopes.contains, Scopes.declare, Lexeme.bare,
      Lexeme.isComment, Lexeme.isOperand, hkeyword, hdeclares, hname]
  have hgate : classAt? ((scan "qubit r;r(".toList).lexemes ++
      .bare .unterminatedString "\"x" :: (scan ") $0;".toList).lexemes) 3 = some .gate := by
    rw [hbefore, hafter, classAt?_eq_getElem?]
    simp [classesFrom, headsCall, afterPartner?, operandFollows, Context.step, Context.word,
      Context.name, Context.reserved, Context.punctuation, Lexeme.bare, Lexeme.isComment,
      Lexeme.isOperand, hkeyword, hdeclares, hname]
  rcases class_eq_or_call_reaches_over hcut hsemicolon (scan "qubit r;r(".toList).lexemes
    (scan ") $0;".toList).lexemes hplace with hsame | ⟨_, _, _, hreaches⟩
  · rw [hgate, hregister] at hsame
    cases hsame
  · exact hreaches

/-- A name that heads no call if a semicolon ends its statement. -/
theorem class_differs_at_cut_string :
    ¬ ∀ (cut semicolon : Lexeme) (before after : List Lexeme) (place : Nat),
      cut.kind = .unterminatedString → semicolon.kind = .punctuation .semicolon →
      place ≠ before.length →
      classAt? (before ++ cut :: after) place = classAt? (before ++ semicolon :: after) place := by
  intro hsame
  have hbefore : (scan "foo(".toList).lexemes =
      [⟨.word, "foo", ⟨1, 0⟩, 3⟩, ⟨.punctuation .openParen, "(", ⟨1, 3⟩, 1⟩] := by
    decide +kernel
  have hafter : (scan ") q;".toList).lexemes =
      [⟨.punctuation .closeParen, ")", ⟨1, 0⟩, 1⟩, ⟨.word, "q", ⟨1, 2⟩, 1⟩,
        ⟨.punctuation .semicolon, ";", ⟨1, 3⟩, 1⟩] := by
    decide +kernel
  have hcall : Vocabulary.reservedClass? "foo" = none := by decide
  have hoperand : Vocabulary.reservedClass? "q" = none := by decide
  have hclasses := hsame (.bare .unterminatedString "\"x") (.bare (.punctuation .semicolon) ";")
    (scan "foo(".toList).lexemes (scan ") q;".toList).lexemes 0 rfl rfl
    (by rw [hbefore]; decide)
  have hgate : classAt? ((scan "foo(".toList).lexemes ++
      .bare .unterminatedString "\"x" :: (scan ") q;".toList).lexemes) 0 = some .gate := by
    rw [hbefore, hafter, classAt?_eq_getElem?]
    simp [classesFrom, headsCall, afterPartner?, operandFollows, Context.step, Context.word,
      Context.name, Lexeme.bare, Lexeme.isComment, Lexeme.isOperand, hcall, hoperand]
  have hidentifier : classAt? ((scan "foo(".toList).lexemes ++
      .bare (.punctuation .semicolon) ";" :: (scan ") q;".toList).lexemes) 0 =
        some .identifier := by
    rw [hbefore, hafter, classAt?_eq_getElem?]
    simp [classesFrom, headsCall, afterPartner?, Context.step, Context.word, Context.name,
      Scopes.contains, Lexeme.bare, Lexeme.isComment, Lexeme.isOperand, hcall]
  rw [hgate, hidentifier] at hclasses
  cases hclasses

end QasmHighlight
