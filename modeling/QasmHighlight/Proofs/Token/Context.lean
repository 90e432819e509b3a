import QasmHighlight.Proofs.Token.Lookahead

/-!
# What bears on the class of a lexeme

The class of a lexeme depends on the lexemes before it and, if it is a word, on
whether it heads a gate call.  Comments bear on neither: classifying lexemes
without their comments gives the other lexemes the classes they have with them.
No search for a gate call goes beyond a semicolon or a brace, so what follows
after one of these does not change a class before it.
-/

namespace QasmHighlight

/-! ## Classes and kinds -/

def Context.wordClasses : List TokenClass :=
  [.gate, .identifier, .register] ++ Vocabulary.groups.map (·.1)

private theorem Context.word_class_mem (context : Context) (text : String) (call : Bool) :
    (context.word text call).1 ∈ wordClasses := by
  unfold Context.word
  cases hreserved : Vocabulary.reservedClass? text with
  | some reservedClass =>
      unfold Vocabulary.reservedClass? at hreserved
      obtain ⟨group, hgroup, rfl⟩ := Option.map_eq_some_iff.1 hreserved
      have hmem := List.mem_of_find?_eq_some hgroup
      exact List.mem_append_right _ (List.mem_map_of_mem hmem)
  | none =>
      apply List.mem_append_left
      dsimp only
      unfold Context.name
      dsimp only
      split_ifs <;> simp

theorem Context.step_class_eq_comment_iff (context : Context) (lexeme : Lexeme) (call : Bool) :
    (context.step lexeme call).1 = .comment ↔ lexeme.isComment = true := by
  have hword := context.word_class_mem lexeme.text call
  have hcomment : TokenClass.comment ∉ wordClasses := by decide
  unfold Context.step Lexeme.isComment
  cases hkind : lexeme.kind with
  | word =>
      simp only [reduceCtorEq, decide_false, Bool.false_eq_true, iff_false]
      intro hclass
      exact hcomment (hclass ▸ hword)
  | _ => simp

theorem Context.kind_of_step_class_eq_punctuation
    {context : Context} {lexeme : Lexeme} {call : Bool}
    (hclass : (context.step lexeme call).1 = .punctuation) :
    ∃ mark, lexeme.kind = .punctuation mark := by
  have hword := context.word_class_mem lexeme.text call
  have hpunctuation : TokenClass.punctuation ∉ wordClasses := by decide
  unfold Context.step at hclass
  cases hkind : lexeme.kind with
  | word =>
      rw [hkind] at hclass
      exact absurd (hclass ▸ hword) hpunctuation
  | punctuation mark => exact ⟨mark, rfl⟩
  | _ => simp [hkind] at hclass

theorem Context.step_of_isComment (context : Context) {lexeme : Lexeme}
    (hcomment : lexeme.isComment = true) (call : Bool) :
    context.step lexeme call = (.comment, context) := by
  have hkind : lexeme.kind = .comment := by simpa [Lexeme.isComment] using hcomment
  simp [Context.step, hkind]

theorem Context.step_of_isBoundary (context : Context) {lexeme : Lexeme}
    (hboundary : lexeme.isBoundary = true) (call call' : Bool) :
    context.step lexeme call = context.step lexeme call' := by
  rcases Lexeme.kind_of_isBoundary hboundary with hkind | hkind | hkind <;>
    simp [Context.step, hkind]

@[simp] theorem length_classesFrom (context : Context) (lexemes : List Lexeme) :
    (classesFrom context lexemes).length = lexemes.length := by
  induction lexemes generalizing context with
  | nil => rfl
  | cons lexeme rest ih => simp [classesFrom, ih]

/-! ## Comments -/

def Lexeme.isSignificant (lexeme : Lexeme) : Bool :=
  !lexeme.isComment

private theorem Lexeme.isInert_of_isComment {lexeme : Lexeme} (hcomment : lexeme.isComment = true) :
    lexeme.IsInert := by
  have hkind : lexeme.kind = .comment := by simpa [Lexeme.isComment] using hcomment
  refine ⟨by simp [hkind], by simp [hkind], ?_⟩
  simp [Lexeme.isBoundary, hkind]

theorem afterPartner?_filter (depth : Nat) (lexemes : List Lexeme) :
    afterPartner? depth (lexemes.filter Lexeme.isSignificant) =
      (afterPartner? depth lexemes).map (·.filter Lexeme.isSignificant) := by
  induction lexemes generalizing depth with
  | nil => rfl
  | cons lexeme rest ih =>
      by_cases hcomment : lexeme.isComment = true
      · have hinert := Lexeme.isInert_of_isComment hcomment
        rw [List.filter_cons_of_neg (by simp [Lexeme.isSignificant, hcomment]), ih,
          afterPartner?_of_isInert rest hinert]
      · rw [List.filter_cons_of_pos (by simp [Lexeme.isSignificant, hcomment])]
        rcases lexeme.paren_cases with hopen | hclose | hboundary | hinert
        · rw [afterPartner?_of_open _ hopen, afterPartner?_of_open _ hopen, ih]
        · cases depth with
          | zero =>
              rw [afterPartner?_zero_of_close _ hclose, afterPartner?_zero_of_close _ hclose,
                Option.map_some]
          | succ depth =>
              rw [afterPartner?_succ_of_close _ hclose, afterPartner?_succ_of_close _ hclose, ih]
        · rw [afterPartner?_of_isBoundary _ hboundary, afterPartner?_of_isBoundary _ hboundary,
            Option.map_none]
        · rw [afterPartner?_of_isInert _ hinert, afterPartner?_of_isInert _ hinert, ih]

theorem operandFollows_filter (rest : List Lexeme) :
    operandFollows (rest.filter Lexeme.isSignificant) = operandFollows rest := by
  unfold operandFollows
  rw [← List.head?_filter, ← List.head?_filter, List.filter_filter]
  simp [Lexeme.isSignificant]

theorem headsCall_filter (rest : List Lexeme) :
    headsCall (rest.filter Lexeme.isSignificant) = headsCall rest := by
  induction rest with
  | nil => rfl
  | cons lexeme rest ih =>
      by_cases hcomment : lexeme.isComment = true
      · rw [List.filter_cons_of_neg (by simp [Lexeme.isSignificant, hcomment]), ih]
        simp [headsCall, hcomment]
      · rw [List.filter_cons_of_pos (by simp [Lexeme.isSignificant, hcomment])]
        simp only [headsCall, List.dropWhile_cons, hcomment, Bool.false_eq_true, if_false,
          afterPartner?_filter]
        cases afterPartner? 0 rest with
        | none => rfl
        | some later => simp [operandFollows_filter]

theorem zipWith_classesFrom_filter (context : Context) (lexemes : List Lexeme) :
    List.zipWith Lexeme.toToken (lexemes.filter Lexeme.isSignificant)
        (classesFrom context (lexemes.filter Lexeme.isSignificant)) =
      (List.zipWith Lexeme.toToken lexemes (classesFrom context lexemes)).filter
        (·.tokenClass ≠ .comment) := by
  induction lexemes generalizing context with
  | nil => rfl
  | cons lexeme rest ih =>
      have hclass := context.step_class_eq_comment_iff lexeme (headsCall rest)
      by_cases hcomment : lexeme.isComment = true
      · rw [List.filter_cons_of_neg (by simp [Lexeme.isSignificant, hcomment]), ih]
        simp [classesFrom, Context.step_of_isComment _ hcomment, Lexeme.toToken]
      · have hkept : (lexeme.toToken (context.step lexeme (headsCall rest)).1).tokenClass ≠
            .comment := fun h => hcomment (hclass.1 h)
        rw [List.filter_cons_of_pos (by simp [Lexeme.isSignificant, hcomment])]
        simp only [classesFrom, headsCall_filter, List.zipWith_cons_cons]
        rw [List.filter_cons, if_pos (decide_eq_true hkept), ih]

/-- Leaving the comments out leaves the classes of all other lexemes. -/
theorem classify_filter (lexemes : List Lexeme) :
    classify (lexemes.filter Lexeme.isSignificant) =
      (classify lexemes).filter (·.tokenClass ≠ .comment) := by
  rw [classify_eq_zipWith, classify_eq_zipWith, zipWith_classesFrom_filter]

/-! ## Boundaries -/

private theorem Lexeme.isComment_eq_false_of_isBoundary {lexeme : Lexeme}
    (hboundary : lexeme.isBoundary = true) : lexeme.isComment = false := by
  rcases Lexeme.kind_of_isBoundary hboundary with hkind | hkind | hkind <;>
    simp [Lexeme.isComment, hkind]

theorem classesFrom_comments_append
    (context : Context) {comments : List Lexeme}
    (hcomments : ∀ lexeme ∈ comments, lexeme.isComment = true) (following : List Lexeme) :
    classesFrom context comments <+: classesFrom context (comments ++ following) := by
  induction comments with
  | nil => exact List.nil_prefix
  | cons comment more ih =>
      have hcomment := hcomments comment List.mem_cons_self
      have hmore := ih fun lexeme hlexeme =>
        hcomments lexeme (List.mem_cons_of_mem comment hlexeme)
      simp only [List.cons_append, classesFrom, Context.step_of_isComment _ hcomment]
      exact List.cons_prefix_cons.2 ⟨rfl, hmore⟩

section

variable {boundary : Lexeme} (hboundary : boundary.isBoundary = true)
include hboundary

theorem operandFollows_append {rest : List Lexeme} (hmem : boundary ∈ rest)
    (following : List Lexeme) : operandFollows (rest ++ following) = operandFollows rest := by
  have hcomment := Lexeme.isComment_eq_false_of_isBoundary hboundary
  have hfound : (rest.find? (!·.isComment)).isSome = true := by
    rw [List.find?_isSome]
    exact ⟨boundary, hmem, by simp [hcomment]⟩
  obtain ⟨next, hnext⟩ := Option.isSome_iff_exists.1 hfound
  unfold operandFollows
  rw [List.find?_append, hnext, Option.some_or]

/-- A parenthesis that is closed before a boundary is closed there whatever
follows, and the boundary is still to come. -/
theorem afterPartner?_append {lexemes : List Lexeme} (hmem : boundary ∈ lexemes)
    (following : List Lexeme) (depth : Nat) :
    afterPartner? depth (lexemes ++ following) =
        (afterPartner? depth lexemes).map (· ++ following) ∧
      ∀ rest, afterPartner? depth lexemes = some rest → boundary ∈ rest := by
  induction lexemes generalizing depth with
  | nil => cases hmem
  | cons lexeme more ih =>
      rw [List.cons_append]
      by_cases hstop : lexeme.isBoundary = true
      · rw [afterPartner?_of_isBoundary _ hstop, afterPartner?_of_isBoundary _ hstop]
        exact ⟨rfl, fun rest hrest => by cases hrest⟩
      · have hmore : boundary ∈ more := by
          rcases List.mem_cons.1 hmem with rfl | hmore
          · exact absurd hboundary hstop
          · exact hmore
        rcases lexeme.paren_cases with hopen | hclose | hstop' | hinert
        · rw [afterPartner?_of_open _ hopen, afterPartner?_of_open _ hopen]
          exact ih hmore (depth + 1)
        · cases depth with
          | zero =>
              rw [afterPartner?_zero_of_close _ hclose, afterPartner?_zero_of_close _ hclose]
              refine ⟨rfl, fun rest hrest => ?_⟩
              cases hrest
              exact hmore
          | succ depth =>
              rw [afterPartner?_succ_of_close _ hclose, afterPartner?_succ_of_close _ hclose]
              exact ih hmore depth
        · exact absurd hstop' hstop
        · rw [afterPartner?_of_isInert _ hinert, afterPartner?_of_isInert _ hinert]
          exact ih hmore depth

/-- A parenthesis before the boundary that is closed at all is closed before it, so
what follows the boundary does not count. -/
theorem headsCall_append {rest : List Lexeme} (hmem : boundary ∈ rest)
    (following : List Lexeme) : headsCall (rest ++ following) = headsCall rest := by
  have hcomment := Lexeme.isComment_eq_false_of_isBoundary hboundary
  induction rest with
  | nil => cases hmem
  | cons lexeme more ih =>
      by_cases hskip : lexeme.isComment = true
      · have hmore : boundary ∈ more := by
          rcases List.mem_cons.1 hmem with rfl | hmore
          · rw [hcomment] at hskip
            contradiction
          · exact hmore
        have hrest := ih hmore
        simp only [headsCall, List.cons_append, List.dropWhile_cons, hskip, if_true] at hrest ⊢
        exact hrest
      · simp only [headsCall, List.cons_append, List.dropWhile_cons, hskip, Bool.false_eq_true,
          if_false]
        by_cases hopen : lexeme.kind = .punctuation .openParen
        · have hmore : boundary ∈ more := by
            rcases List.mem_cons.1 hmem with rfl | hmore
            · simp [Lexeme.isBoundary, hopen] at hboundary
            · exact hmore
          obtain ⟨hsearch, hahead⟩ := afterPartner?_append hboundary hmore following 0
          rw [hsearch]
          cases hfound : afterPartner? 0 more with
          | none => rfl
          | some later =>
              simp [operandFollows_append hboundary (hahead later hfound)]
        · have hother : (lexeme.kind == .punctuation .openParen) = false := by
            simpa using hopen
          rw [hother, Bool.false_and, Bool.false_and]

/-- Lexemes that end with a boundary and comments keep their classes whatever
follows them. -/
theorem classesFrom_append
    (context : Context) (before : List Lexeme) {comments : List Lexeme}
    (hcomments : ∀ lexeme ∈ comments, lexeme.isComment = true) (following : List Lexeme) :
    classesFrom context (before ++ boundary :: comments) <+:
      classesFrom context (before ++ boundary :: comments ++ following) := by
  induction before generalizing context with
  | nil =>
      simp only [List.nil_append, List.cons_append, classesFrom]
      rw [context.step_of_isBoundary hboundary (headsCall (comments ++ following))
        (headsCall comments)]
      exact List.cons_prefix_cons.2 ⟨rfl, classesFrom_comments_append _ hcomments following⟩
  | cons lexeme rest ih =>
      have hmem : boundary ∈ rest ++ boundary :: comments :=
        List.mem_append_right rest List.mem_cons_self
      simp only [List.cons_append, classesFrom]
      rw [headsCall_append hboundary hmem following]
      exact List.cons_prefix_cons.2 ⟨rfl, ih _⟩

end

end QasmHighlight
