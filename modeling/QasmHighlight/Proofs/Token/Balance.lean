import Mathlib.Data.List.Infix
import QasmHighlight.Proofs.Token.Pairing

/-!
# Balanced marks

Marks that open and close are balanced when no beginning closes more than it opens
and the whole closes as much as it opens.  The search for the parenthesis that
closes another keeps the number of those still open, and what it passes over is
balanced but for that number.
-/

namespace QasmHighlight

/-! ## Balanced marks -/

def markCount (mark : Punctuation) (lexemes : List Lexeme) : Nat :=
  lexemes.countP (·.kind = .punctuation mark)

/-- No beginning of the lexemes closes more than it opens, and the whole closes as
much as it opens. -/
structure Balanced (opening closing : Punctuation) (lexemes : List Lexeme) : Prop where
  covered : ∀ front, front <+: lexemes → markCount closing front ≤ markCount opening front
  closed : markCount closing lexemes = markCount opening lexemes

theorem balanced_iff (opening closing : Punctuation) (lexemes : List Lexeme) :
    Balanced opening closing lexemes ↔
      (∀ front ∈ lexemes.inits, markCount closing front ≤ markCount opening front) ∧
        markCount closing lexemes = markCount opening lexemes := by
  simp only [List.mem_inits]
  exact ⟨fun hbalanced => ⟨hbalanced.covered, hbalanced.closed⟩, fun h => ⟨h.1, h.2⟩⟩

instance (opening closing : Punctuation) (lexemes : List Lexeme) :
    Decidable (Balanced opening closing lexemes) :=
  decidable_of_iff _ (balanced_iff opening closing lexemes).symm

theorem Balanced.covered_from_zero {opening closing : Punctuation} {lexemes : List Lexeme}
    (hbalanced : Balanced opening closing lexemes) :
    ∀ front, front <+: lexemes → markCount closing front ≤ 0 + markCount opening front := by
  simpa only [Nat.zero_add] using hbalanced.covered

@[simp] theorem markCount_nil (mark : Punctuation) : markCount mark [] = 0 :=
  rfl

theorem markCount_cons (mark : Punctuation) (lexeme : Lexeme) (rest : List Lexeme) :
    markCount mark (lexeme :: rest) = markCount mark [lexeme] + markCount mark rest := by
  simp [markCount, List.countP_cons, Nat.add_comm]

/-- Beginnings that close no more than they open and `depth`, taken apart at the first
lexeme. -/
theorem covered_cons_iff {opening closing : Punctuation} {depth : Nat} {lexeme : Lexeme}
    {rest : List Lexeme} :
    (∀ front, front <+: lexeme :: rest →
        markCount closing front ≤ depth + markCount opening front) ↔
      ∃ next, next + markCount closing [lexeme] = depth + markCount opening [lexeme] ∧
        ∀ front, front <+: rest → markCount closing front ≤ next + markCount opening front := by
  constructor
  · intro hcovered
    have hfirst := hcovered [lexeme] (by simp)
    refine ⟨depth + markCount opening [lexeme] - markCount closing [lexeme], by omega, ?_⟩
    intro front hfront
    have hlonger := hcovered (lexeme :: front) (List.cons_prefix_cons.2 ⟨rfl, hfront⟩)
    rw [markCount_cons, markCount_cons opening] at hlonger
    omega
  · rintro ⟨next, hnext, hcovered⟩ front hfront
    rcases List.prefix_cons_iff.1 hfront with rfl | ⟨shorter, rfl, hshorter⟩
    · simp
    · have hrest := hcovered shorter hshorter
      rw [markCount_cons, markCount_cons opening]
      omega

/-! ## Parentheses left to close -/

/-- The lexemes close `depth` parentheses that were open before them and all that
they open, and stay within a statement. -/
structure Settles (depth : Nat) (lexemes : List Lexeme) : Prop where
  covered : ∀ front, front <+: lexemes →
    markCount .closeParen front ≤ depth + markCount .openParen front
  closed : markCount .closeParen lexemes = depth + markCount .openParen lexemes
  within : ∀ lexeme ∈ lexemes, lexeme.isBoundary = false

theorem settles_zero_iff {lexemes : List Lexeme} :
    Settles 0 lexemes ↔ (∀ lexeme ∈ lexemes, lexeme.isBoundary = false) ∧
      Balanced .openParen .closeParen lexemes := by
  constructor
  · rintro ⟨hcovered, hclosed, hwithin⟩
    simp only [Nat.zero_add] at hcovered hclosed
    exact ⟨hwithin, hcovered, hclosed⟩
  · rintro ⟨hwithin, hbalanced⟩
    refine ⟨hbalanced.covered_from_zero, ?_, hwithin⟩
    rw [hbalanced.closed, Nat.zero_add]

theorem settles_nil_iff {depth : Nat} : Settles depth [] ↔ depth = 0 := by
  constructor
  · intro hsettles
    exact hsettles.closed.symm
  · rintro rfl
    exact ⟨by simp, rfl, by simp⟩

theorem settles_cons_iff {depth : Nat} {lexeme : Lexeme} {rest : List Lexeme} :
    Settles depth (lexeme :: rest) ↔ lexeme.isBoundary = false ∧
      ∃ next, next + markCount .closeParen [lexeme] = depth + markCount .openParen [lexeme] ∧
        Settles next rest := by
  constructor
  · rintro ⟨hcovered, hclosed, hwithin⟩
    obtain ⟨hlexeme, hrest⟩ := List.forall_mem_cons.1 hwithin
    obtain ⟨next, hnext, hcovered'⟩ := covered_cons_iff.1 hcovered
    rw [markCount_cons, markCount_cons .openParen] at hclosed
    exact ⟨hlexeme, next, hnext, hcovered', by omega, hrest⟩
  · rintro ⟨hlexeme, next, hnext, hcovered, hclosed, hwithin⟩
    refine ⟨covered_cons_iff.2 ⟨next, hnext, hcovered⟩, ?_,
      List.forall_mem_cons.2 ⟨hlexeme, hwithin⟩⟩
    rw [markCount_cons, markCount_cons .openParen]
    omega

/-- The depth of the search moves as the counts of parentheses do. -/
theorem afterPartner?_cons {depth next : Nat} {lexeme : Lexeme} (rest : List Lexeme)
    (hlexeme : lexeme.isBoundary = false)
    (hnext : next + markCount .closeParen [lexeme] = depth + markCount .openParen [lexeme]) :
    afterPartner? depth (lexeme :: rest) = afterPartner? next rest := by
  rcases lexeme.paren_cases with hopen | hclose | hboundary | hinert
  · obtain rfl : next = depth + 1 := by simpa [markCount, hopen] using hnext
    exact afterPartner?_of_open rest hopen depth
  · obtain rfl : next + 1 = depth := by simpa [markCount, hclose] using hnext
    exact afterPartner?_succ_of_close rest hclose next
  · rw [hlexeme] at hboundary
    cases hboundary
  · obtain rfl : next = depth := by
      simpa [markCount, hinert.not_open, hinert.not_close] using hnext
    exact afterPartner?_of_isInert rest hinert next

theorem Settles.afterPartner? {depth : Nat} {inside : List Lexeme} (hinside : Settles depth inside)
    {closing : Lexeme} (hclosing : closing.kind = .punctuation .closeParen) (rest : List Lexeme) :
    afterPartner? depth (inside ++ closing :: rest) = some rest := by
  induction inside generalizing depth with
  | nil =>
      obtain rfl := settles_nil_iff.1 hinside
      exact afterPartner?_zero_of_close rest hclosing
  | cons lexeme more ih =>
      obtain ⟨hlexeme, next, hnext, hmore⟩ := settles_cons_iff.1 hinside
      rw [List.cons_append, afterPartner?_cons _ hlexeme hnext]
      exact ih hmore

/-- A search that succeeds passes over lexemes that settle its depth, up to the
parenthesis that closes it. -/
theorem exists_settles_of_afterPartner? {depth : Nat} {lexemes rest : List Lexeme}
    (hfound : afterPartner? depth lexemes = some rest) :
    ∃ inside closing, lexemes = inside ++ closing :: rest ∧
      closing.kind = .punctuation .closeParen ∧ Settles depth inside := by
  induction lexemes generalizing depth with
  | nil => cases hfound
  | cons lexeme more ih =>
      by_cases hboundary : lexeme.isBoundary = true
      · rw [afterPartner?_of_isBoundary more hboundary] at hfound
        cases hfound
      · have hlexeme := eq_false_of_ne_true hboundary
        by_cases hlast : depth = 0 ∧ lexeme.kind = .punctuation .closeParen
        · obtain ⟨rfl, hclose⟩ := hlast
          rw [afterPartner?_zero_of_close more hclose] at hfound
          cases hfound
          exact ⟨[], lexeme, rfl, hclose, settles_nil_iff.2 rfl⟩
        · have hcount : markCount .closeParen [lexeme] ≤ depth + markCount .openParen [lexeme] := by
            by_cases hclose : lexeme.kind = .punctuation .closeParen
            · have hdepth : depth ≠ 0 := fun hzero => hlast ⟨hzero, hclose⟩
              have hone : markCount .closeParen [lexeme] = 1 := by simp [markCount, hclose]
              omega
            · simp [markCount, hclose]
          obtain ⟨next, hnext⟩ := Nat.exists_eq_add_of_le' hcount
          rw [afterPartner?_cons more hlexeme hnext.symm] at hfound
          obtain ⟨inside, closing, rfl, hclosing, hinside⟩ := ih hfound
          exact ⟨lexeme :: inside, closing, rfl, hclosing,
            settles_cons_iff.2 ⟨hlexeme, next, hnext.symm, hinside⟩⟩

end QasmHighlight
