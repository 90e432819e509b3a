import QasmHighlight.Proofs.Token.Declaration

/-!
# Parentheses that close what they opened

The context keeps the open parentheses, and with each of them whether it encloses
a condition.  Only parentheses change this stack: no semicolon or brace does, nor a
keyword that opens another condition.  Along lexemes that close no more than they
open, the part of the stack that was there before them is never reached.  So the
parenthesis after balanced lexemes meets the entry of the one before them, and the
head of a statement follows it exactly if a condition was awaited there.
-/

namespace QasmHighlight

def Vocabulary.conditionKeywords : List String :=
  ["if", "while", "switch"]

theorem Vocabulary.role_eq_opensCondition_iff (word : String) :
    Vocabulary.role word = .opensCondition ↔ word ∈ Vocabulary.conditionKeywords := by
  constructor
  · intro hrole
    unfold Vocabulary.role at hrole
    split_ifs at hrole with _ hword
    exact hword
  · have hwords : ∀ word ∈ conditionKeywords, role word = .opensCondition := by decide
    exact hwords word

def Lexeme.opensCondition (lexeme : Lexeme) : Bool :=
  lexeme.kind = .word && lexeme.text ∈ Vocabulary.conditionKeywords

/-- The open parentheses past a lexeme. -/
def parensPast (awaitsCondition : Bool) (parens : List Paren) : LexemeKind → List Paren
  | .punctuation .openParen => (if awaitsCondition then .condition else .other) :: parens
  | .punctuation .closeParen => parens.tail
  | _ => parens

/-! ## One step -/

namespace Context

theorem condition_step (context : Context) (lexeme : Lexeme) (call : Bool) :
    (context.step lexeme call).2.parens =
        parensPast context.awaitsCondition context.parens lexeme.kind ∧
      (context.step lexeme call).2.awaitsCondition =
        (lexeme.kind != .punctuation .openParen &&
          (context.awaitsCondition || lexeme.opensCondition)) := by
  cases hkind : lexeme.kind with
  | word =>
      cases hreserved : Vocabulary.reservedClass? lexeme.text with
      | some reservedClass =>
          rw [context.step_of_reserved hkind hreserved]
          simp [reserved, parensPast, Lexeme.opensCondition, hkind,
            Vocabulary.role_eq_opensCondition_iff]
      | none =>
          have hopens : lexeme.opensCondition = false := by
            have hwords : ∀ word ∈ Vocabulary.conditionKeywords,
                Vocabulary.reservedClass? word ≠ none := by
              decide
            have hword := mt (hwords lexeme.text) (not_not.2 hreserved)
            simp [Lexeme.opensCondition, hword]
          rw [context.step_of_isName (Lexeme.isName_iff.2 ⟨hkind, hreserved⟩), name_snd_eq, hopens]
          split_ifs <;> simp [parensPast]
  | punctuation mark =>
      simp only [step, hkind]
      cases mark <;> simp [punctuation, parensPast, Lexeme.opensCondition, hkind]
  | _ => simp [step, hkind, operator, parensPast, Lexeme.opensCondition]

theorem atHead_step_of_close (context : Context) {lexeme : Lexeme}
    (hkind : lexeme.kind = .punctuation .closeParen) (call : Bool) :
    (context.step lexeme call).2.atHead = decide (context.parens.head? = some .condition) := by
  simp only [step, hkind, punctuation]

/-- The stack below `depth` entries stays as it is if a lexeme moves the depth as the
counts of parentheses do. -/
theorem drop_parens_step (context : Context) {lexeme : Lexeme} {depth next : Nat}
    (hnext : next + markCount .closeParen [lexeme] = depth + markCount .openParen [lexeme])
    (call : Bool) :
    (context.step lexeme call).2.parens.drop next = context.parens.drop depth := by
  rw [(context.condition_step lexeme call).1]
  by_cases hopen : lexeme.kind = .punctuation .openParen
  · obtain rfl : next = depth + 1 := by simpa [markCount, hopen] using hnext
    simp [parensPast, hopen]
  · by_cases hclose : lexeme.kind = .punctuation .closeParen
    · obtain rfl : next + 1 = depth := by simpa [markCount, hclose] using hnext
      simp [parensPast, hclose]
    · obtain rfl : next = depth := by simpa [markCount, hopen, hclose] using hnext
      unfold parensPast
      split <;> simp_all

end Context

/-! ## Along a run -/

theorem drop_parens_contextAfter (context : Context) {lexemes : List Lexeme} {depth next : Nat}
    (hcovered : ∀ front, front <+: lexemes →
      markCount .closeParen front ≤ depth + markCount .openParen front)
    (hnext : next + markCount .closeParen lexemes = depth + markCount .openParen lexemes) :
    (contextAfter context [] lexemes).parens.drop next = context.parens.drop depth := by
  induction lexemes generalizing context depth with
  | nil =>
      obtain rfl : next = depth := by simpa using hnext
      rfl
  | cons lexeme rest ih =>
      obtain ⟨between, hbetween, hrest⟩ := covered_cons_iff.1 hcovered
      rw [markCount_cons, markCount_cons .openParen] at hnext
      rw [contextAfter_cons, ih _ hrest (by omega), context.drop_parens_step hbetween]

theorem Balanced.parens_contextAfter {inside : List Lexeme}
    (hinside : Balanced .openParen .closeParen inside) (context : Context) :
    (contextAfter context [] inside).parens = context.parens := by
  have hclosed : 0 + markCount .closeParen inside = 0 + markCount .openParen inside := by
    rw [hinside.closed]
  exact drop_parens_contextAfter context hinside.covered_from_zero hclosed

theorem Balanced.contextAfter_parenthesized {inside : List Lexeme}
    (hinside : Balanced .openParen .closeParen inside) {opening closing : Lexeme}
    (hopening : opening.kind = .punctuation .openParen)
    (hclosing : closing.kind = .punctuation .closeParen) (context : Context) :
    (contextAfter context [] (opening :: inside ++ [closing])).parens = context.parens ∧
      (contextAfter context [] (opening :: inside ++ [closing])).atHead =
        context.awaitsCondition := by
  have hopened := (context.condition_step opening false).1
  rw [hopening, parensPast, ← hinside.parens_contextAfter] at hopened
  rw [contextAfter_concat, contextAfter_cons]
  constructor
  · rw [(Context.condition_step _ closing false).1, hclosing, hopened]
    rfl
  · rw [Context.atHead_step_of_close _ hclosing, hopened]
    cases context.awaitsCondition <;> rfl

theorem awaitsCondition_contextAfter {context : Context} (hawaits : context.awaitsCondition = true)
    {lexemes : List Lexeme} (hlexemes : ∀ lexeme ∈ lexemes, lexeme.kind ≠ .punctuation .openParen) :
    (contextAfter context [] lexemes).awaitsCondition = true := by
  induction lexemes generalizing context with
  | nil => exact hawaits
  | cons lexeme rest ih =>
      obtain ⟨hlexeme, hrest⟩ := List.forall_mem_cons.1 hlexemes
      rw [contextAfter_cons]
      apply ih _ hrest
      rw [(context.condition_step lexeme false).2, hawaits]
      simpa using hlexeme

theorem contextAfter_comments (context : Context) {comments : List Lexeme}
    (hcomments : ∀ comment ∈ comments, comment.isComment = true) :
    contextAfter context [] comments = context := by
  have hnone : comments.filter Lexeme.isSignificant = [] := by
    simpa [Lexeme.isSignificant] using hcomments
  rw [← contextAfter_filter, hnone]
  rfl

/-- Classifies lexemes in a row, the first of them at `place`. -/
def Classified.run (found : Classified) (ahead : Lookahead) (place : Nat)
    (lexemes : List Lexeme) : Classified :=
  (lexemes.zipIdx place).foldl (fun (found : Classified) x => found.step ahead x.1 x.2) found

theorem Classified.context_run (found : Classified) (ahead : Lookahead) (place : Nat)
    (lexemes : List Lexeme) :
    (found.run ahead place lexemes).context = contextAfter found.context [] lexemes :=
  Classified.context_foldl_step ahead lexemes place found

/-- Parentheses around balanced lexemes leave the stack as it was, and the head of a
statement exactly if a condition was awaited where they open.  So what comes after the
condition of a keyword is at the head of a statement, whatever the condition holds. -/
theorem parens_restored_after_balanced (found : Classified) (ahead : Lookahead) (place : Nat)
    {opening closing : Lexeme} {inside : List Lexeme}
    (hopening : opening.kind = .punctuation .openParen)
    (hclosing : closing.kind = .punctuation .closeParen)
    (hinside : Balanced .openParen .closeParen inside) :
    (found.run ahead place (opening :: inside ++ [closing])).context.parens =
      found.context.parens ∧
    ((found.run ahead place (opening :: inside ++ [closing])).context.atHead = true ↔
      found.context.awaitsCondition = true) ∧
    ∀ (keyword : Lexeme) (between comments : List Lexeme),
      keyword.kind = .word → keyword.text ∈ ["if", "while", "switch"] →
      (∀ lexeme ∈ between, lexeme.kind ≠ .punctuation .openParen) →
      (∀ comment ∈ comments, comment.isComment = true) →
      (found.run ahead place
        (keyword :: between ++ (opening :: inside ++ [closing]) ++ comments)).context.atHead =
          true := by
  refine ⟨?_, ?_, ?_⟩
  · rw [Classified.context_run]
    exact (hinside.contextAfter_parenthesized hopening hclosing _).1
  · rw [Classified.context_run, (hinside.contextAfter_parenthesized hopening hclosing _).2]
  · intro keyword between comments hkind htext hbetween hcomments
    have hkeyword : keyword.opensCondition = true := by
      simp [Lexeme.opensCondition, Vocabulary.conditionKeywords, hkind, htext]
    have hawaits : (found.context.step keyword false).2.awaitsCondition = true := by
      rw [(found.context.condition_step keyword false).2, hkeyword, hkind]
      simp
    rw [Classified.context_run, contextAfter_append, contextAfter_append,
      contextAfter_comments _ hcomments,
      (hinside.contextAfter_parenthesized hopening hclosing _).2, contextAfter_cons]
    exact awaitsCondition_contextAfter hawaits hbetween

/-- A condition within another parenthesis.  It holds a condition, ends a statement, opens
a block and leaves a third condition awaited. -/
theorem parens_restored_after_balanced_nested :
    ∃ found inside,
      ({} : Classified).run (.ofLexemes []) 0 (scan "measure(while".toList).lexemes = found ∧
      (scan "if((a;))\x7bswitch".toList).lexemes = inside ∧
      found.context.parens = [.other] ∧ found.context.awaitsCondition = true ∧
      Balanced .openParen .closeParen inside ∧
      (found.run (.ofLexemes []) 3 (.bare (.punctuation .openParen) "(" :: inside ++
        [.bare (.punctuation .closeParen) ")"])).context.parens = [.other] ∧
      (found.run (.ofLexemes []) 3 (.bare (.punctuation .openParen) "(" :: inside ++
        [.bare (.punctuation .closeParen) ")"])).context.atHead = true := by
  refine ⟨_, _, rfl, rfl, ?_⟩
  have hparens : (({} : Classified).run (.ofLexemes []) 0
      (scan "measure(while".toList).lexemes).context.parens = [.other] := by
    decide +kernel
  have hawaits : (({} : Classified).run (.ofLexemes []) 0
      (scan "measure(while".toList).lexemes).context.awaitsCondition = true := by
    decide +kernel
  have hlexemes : (scan "if((a;))\x7bswitch".toList).lexemes =
      [⟨.word, "if", ⟨1, 0⟩, 2⟩, ⟨.punctuation .openParen, "(", ⟨1, 2⟩, 1⟩,
       ⟨.punctuation .openParen, "(", ⟨1, 3⟩, 1⟩, ⟨.word, "a", ⟨1, 4⟩, 1⟩,
       ⟨.punctuation .semicolon, ";", ⟨1, 5⟩, 1⟩, ⟨.punctuation .closeParen, ")", ⟨1, 6⟩, 1⟩,
       ⟨.punctuation .closeParen, ")", ⟨1, 7⟩, 1⟩, ⟨.punctuation .openBrace, "\x7b", ⟨1, 8⟩, 1⟩,
       ⟨.word, "switch", ⟨1, 9⟩, 6⟩] := by
    decide +kernel
  have hbalanced : Balanced .openParen .closeParen
      (scan "if((a;))\x7bswitch".toList).lexemes := by
    rw [hlexemes]
    decide
  have hopening : (Lexeme.bare (.punctuation .openParen) "(").kind = .punctuation .openParen := rfl
  have hclosing : (Lexeme.bare (.punctuation .closeParen) ")").kind =
      .punctuation .closeParen := rfl
  obtain ⟨hstack, hhead, _⟩ := parens_restored_after_balanced
    (({} : Classified).run (.ofLexemes []) 0 (scan "measure(while".toList).lexemes)
    (.ofLexemes []) 3 hopening hclosing hbalanced
  exact ⟨hparens, hawaits, hbalanced, hstack.trans hparens, hhead.2 hawaits⟩

end QasmHighlight
