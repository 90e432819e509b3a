import QasmHighlight.Token.Classify

/-!
# Pairs of parentheses

The parenthesis that closes another can be searched for from the open one, or all
pairs can be found in one pass with a stack of the places that are still open.
A semicolon or a brace ends both: the search gives up and the stack is emptied.
The main statement is that the pass finds for every open parenthesis what the
search finds.
-/

namespace QasmHighlight

/-! ## The search -/

/-- A semicolon or a brace. -/
def Lexeme.isBoundary (lexeme : Lexeme) : Bool :=
  match lexeme.kind with
  | .punctuation .semicolon => true
  | .punctuation .openBrace => true
  | .punctuation .closeBrace => true
  | _ => false

/-- A lexeme that has no part in the pairing of parentheses. -/
structure Lexeme.IsInert (lexeme : Lexeme) : Prop where
  not_open : lexeme.kind ≠ .punctuation .openParen
  not_close : lexeme.kind ≠ .punctuation .closeParen
  not_boundary : lexeme.isBoundary = false

theorem Lexeme.paren_cases (lexeme : Lexeme) :
    lexeme.kind = .punctuation .openParen ∨ lexeme.kind = .punctuation .closeParen ∨
      lexeme.isBoundary = true ∨ lexeme.IsInert := by
  by_cases hopen : lexeme.kind = .punctuation .openParen
  · exact .inl hopen
  · by_cases hclose : lexeme.kind = .punctuation .closeParen
    · exact .inr (.inl hclose)
    · by_cases hboundary : lexeme.isBoundary = true
      · exact .inr (.inr (.inl hboundary))
      · exact .inr (.inr (.inr ⟨hopen, hclose, eq_false_of_ne_true hboundary⟩))

section

variable {lexeme : Lexeme} (rest : List Lexeme)

theorem afterPartner?_of_open (hkind : lexeme.kind = .punctuation .openParen) (depth : Nat) :
    afterPartner? depth (lexeme :: rest) = afterPartner? (depth + 1) rest := by
  simp [afterPartner?, hkind]

theorem afterPartner?_zero_of_close (hkind : lexeme.kind = .punctuation .closeParen) :
    afterPartner? 0 (lexeme :: rest) = some rest := by
  simp [afterPartner?, hkind]

theorem afterPartner?_succ_of_close (hkind : lexeme.kind = .punctuation .closeParen)
    (depth : Nat) : afterPartner? (depth + 1) (lexeme :: rest) = afterPartner? depth rest := by
  simp [afterPartner?, hkind]

theorem Lexeme.kind_of_isBoundary (hboundary : lexeme.isBoundary = true) :
    lexeme.kind = .punctuation .semicolon ∨ lexeme.kind = .punctuation .openBrace ∨
      lexeme.kind = .punctuation .closeBrace := by
  unfold Lexeme.isBoundary at hboundary
  split at hboundary
  · next hkind => exact .inl hkind
  · next hkind => exact .inr (.inl hkind)
  · next hkind => exact .inr (.inr hkind)
  · cases hboundary

theorem afterPartner?_of_isBoundary (hboundary : lexeme.isBoundary = true) (depth : Nat) :
    afterPartner? depth (lexeme :: rest) = none := by
  rcases Lexeme.kind_of_isBoundary hboundary with hkind | hkind | hkind <;>
    simp [afterPartner?, hkind]

theorem afterPartner?_of_isInert (hinert : lexeme.IsInert) (depth : Nat) :
    afterPartner? depth (lexeme :: rest) = afterPartner? depth rest := by
  obtain ⟨hopen, hclose, hboundary⟩ := hinert
  rw [afterPartner?.eq_def depth (lexeme :: rest)]
  dsimp only
  split
  · next hkind => exact absurd hkind hopen
  · next hkind => exact absurd hkind hclose
  · next hkind => simp [Lexeme.isBoundary, hkind] at hboundary
  · next hkind => simp [Lexeme.isBoundary, hkind] at hboundary
  · next hkind => simp [Lexeme.isBoundary, hkind] at hboundary
  · rfl

end

/-! ## The stack -/

namespace Pairing

variable {lexeme : Lexeme} (pairing : Pairing) (place : Nat)

theorem step_of_open (hkind : lexeme.kind = .punctuation .openParen) :
    pairing.step lexeme place = { pairing with unclosed := place :: pairing.unclosed } := by
  simp [Pairing.step, hkind]

theorem step_of_close_nil (hkind : lexeme.kind = .punctuation .closeParen)
    (hunclosed : pairing.unclosed = []) : pairing.step lexeme place = pairing := by
  simp [Pairing.step, hkind, hunclosed]

theorem step_of_close_cons (hkind : lexeme.kind = .punctuation .closeParen)
    {start : Nat} {outer : List Nat} (hunclosed : pairing.unclosed = start :: outer) :
    pairing.step lexeme place =
      ⟨pairing.partners.setIfInBounds start (some place), outer⟩ := by
  simp [Pairing.step, hkind, hunclosed]

theorem step_of_isBoundary (hboundary : lexeme.isBoundary = true) :
    pairing.step lexeme place = { pairing with unclosed := [] } := by
  rcases Lexeme.kind_of_isBoundary hboundary with hkind | hkind | hkind <;>
    simp [Pairing.step, hkind]

theorem step_of_isInert (hinert : lexeme.IsInert) : pairing.step lexeme place = pairing := by
  obtain ⟨hopen, hclose, hboundary⟩ := hinert
  unfold Pairing.step
  split
  · next hkind => exact absurd hkind hopen
  · next hkind => exact absurd hkind hclose
  · next hkind => simp [Lexeme.isBoundary, hkind] at hboundary
  · next hkind => simp [Lexeme.isBoundary, hkind] at hboundary
  · next hkind => simp [Lexeme.isBoundary, hkind] at hboundary
  · rfl

/-- A lexeme opens a parenthesis, closes the innermost one, gives up all that are
open, or changes nothing. -/
theorem step_cases (lexeme : Lexeme) :
    (lexeme.kind = .punctuation .openParen ∧
      pairing.step lexeme place = { pairing with unclosed := place :: pairing.unclosed }) ∨
    (∃ start outer, lexeme.kind = .punctuation .closeParen ∧
      pairing.unclosed = start :: outer ∧
      pairing.step lexeme place =
        ⟨pairing.partners.setIfInBounds start (some place), outer⟩) ∨
    (lexeme.isBoundary = true ∧
      pairing.step lexeme place = { pairing with unclosed := [] }) ∨
    (lexeme.kind ≠ .punctuation .openParen ∧ pairing.step lexeme place = pairing) := by
  rcases lexeme.paren_cases with hopen | hclose | hboundary | hinert
  · exact .inl ⟨hopen, step_of_open pairing place hopen⟩
  · cases hunclosed : pairing.unclosed with
    | nil =>
        refine .inr (.inr (.inr ⟨by simp [hclose], ?_⟩))
        exact step_of_close_nil pairing place hclose hunclosed
    | cons start outer =>
        refine .inr (.inl ⟨start, outer, hclose, rfl, ?_⟩)
        exact step_of_close_cons pairing place hclose hunclosed
  · exact .inr (.inr (.inl ⟨hboundary, step_of_isBoundary pairing place hboundary⟩))
  · exact .inr (.inr (.inr ⟨hinert.not_open, step_of_isInert pairing place hinert⟩))

/-- Pairs lexemes in a row, the first of them at `place`. -/
def run (pairing : Pairing) (place : Nat) (lexemes : List Lexeme) : Pairing :=
  (lexemes.zipIdx place).foldl (fun found x => found.step x.1 x.2) pairing

@[simp] theorem run_cons (lexeme : Lexeme) (rest : List Lexeme) :
    pairing.run place (lexeme :: rest) = (pairing.step lexeme place).run (place + 1) rest := rfl

theorem run_append (a b : List Lexeme) :
    pairing.run place (a ++ b) = (pairing.run place a).run (place + a.length) b := by
  unfold run
  rw [List.zipIdx_append, List.foldl_append]

/-- The places still open lie before `place`, each once, and neither they nor the
places from `place` on have a partner. -/
structure Consistent (count place : Nat) (pairing : Pairing) : Prop where
  size_eq : pairing.partners.size = count
  nodup : pairing.unclosed.Nodup
  lt_place : ∀ i ∈ pairing.unclosed, i < place
  unpaired : ∀ i < count, i ∈ pairing.unclosed ∨ place ≤ i → pairing.partners[i]? = some none

variable {pairing} {place}

private theorem Consistent.succ {count : Nat} (hgood : pairing.Consistent count place) :
    pairing.Consistent count (place + 1) := by
  obtain ⟨hsize, hnodup, hlt, hunpaired⟩ := hgood
  refine ⟨hsize, hnodup, fun i hi => Nat.lt_succ_of_lt (hlt i hi), ?_⟩
  intro i hi hcase
  apply hunpaired i hi
  rcases hcase with hmem | hle
  · exact .inl hmem
  · exact .inr (Nat.le_of_succ_le hle)

theorem Consistent.step {count : Nat} (hgood : pairing.Consistent count place)
    (lexeme : Lexeme) : (pairing.step lexeme place).Consistent count (place + 1) := by
  have hlater := hgood.succ
  obtain ⟨hsize, hnodup, hlt, hunpaired⟩ := hgood
  rcases pairing.step_cases place lexeme with
    ⟨_, hstep⟩ | ⟨start, outer, _, hunclosed, hstep⟩ | ⟨_, hstep⟩ | ⟨_, hstep⟩
  · rw [hstep]
    have hfresh : place ∉ pairing.unclosed := fun hmem => Nat.lt_irrefl _ (hlt place hmem)
    refine ⟨hsize, List.nodup_cons.2 ⟨hfresh, hnodup⟩, ?_, ?_⟩
    · intro i hi
      rcases List.mem_cons.1 hi with rfl | hmem
      · exact Nat.lt_succ_self _
      · exact hlater.lt_place i hmem
    · intro i hi hcase
      rcases hcase with hmem | hle
      · rcases List.mem_cons.1 hmem with rfl | hmem
        · exact hunpaired _ hi (.inr (Nat.le_refl _))
        · exact hunpaired i hi (.inl hmem)
      · exact hlater.unpaired i hi (.inr hle)
  · rw [hstep]
    rw [hunclosed] at hnodup hlt hunpaired
    obtain ⟨hstart, houter⟩ := List.nodup_cons.1 hnodup
    have hstartLt := hlt start List.mem_cons_self
    refine ⟨by simpa using hsize, houter, ?_, ?_⟩
    · intro i hi
      exact Nat.lt_succ_of_lt (hlt i (List.mem_cons_of_mem start hi))
    · intro i hi hcase
      have hne : start ≠ i := by
        rintro rfl
        rcases hcase with hmem | hle
        · exact hstart hmem
        · omega
      rw [Array.getElem?_setIfInBounds_ne hne]
      apply hunpaired i hi
      rcases hcase with hmem | hle
      · exact .inl (List.mem_cons_of_mem start hmem)
      · exact .inr (Nat.le_of_succ_le hle)
  · rw [hstep]
    refine ⟨hsize, List.nodup_nil, by simp, ?_⟩
    intro i hi hcase
    rcases hcase with hmem | hle
    · cases hmem
    · exact hlater.unpaired i hi (.inr hle)
  · rw [hstep]
    exact hlater

theorem Consistent.run {count : Nat} (hgood : pairing.Consistent count place)
    (lexemes : List Lexeme) :
    (pairing.run place lexemes).Consistent count (place + lexemes.length) := by
  induction lexemes generalizing pairing place with
  | nil => exact hgood
  | cons lexeme rest ih =>
      have hrest := ih (hgood.step lexeme)
      rw [run_cons, List.length_cons]
      rwa [Nat.add_assoc, Nat.add_comm 1] at hrest

/-- What is closed, or lies behind and was never opened, stays as it is. -/
theorem partners_run_of_notMem {i : Nat} (hi : i < place) (hclosed : i ∉ pairing.unclosed)
    (lexemes : List Lexeme) :
    (pairing.run place lexemes).partners[i]? = pairing.partners[i]? := by
  induction lexemes generalizing pairing place with
  | nil => rfl
  | cons lexeme rest ih =>
      have hlater : i < place + 1 := Nat.lt_succ_of_lt hi
      rw [run_cons]
      rcases pairing.step_cases place lexeme with
        ⟨_, hstep⟩ | ⟨start, outer, _, hunclosed, hstep⟩ | ⟨_, hstep⟩ | ⟨_, hstep⟩
      · have hne : i ≠ place := Nat.ne_of_lt hi
        rw [hstep, ih hlater (by simp [hne, hclosed])]
      · rw [hunclosed, List.mem_cons, not_or] at hclosed
        rw [hstep, ih hlater hclosed.2, Array.getElem?_setIfInBounds_ne (Ne.symm hclosed.1)]
      · rw [hstep, ih hlater (by simp)]
      · rw [hstep, ih hlater hclosed]

/-- An open parenthesis with `depth` more inside it is closed where the search
closes it.  The places above it on the stack are the parentheses that the search has
yet to see closed. -/
theorem partners_run_of_unclosed
    {count depth i : Nat} (hgood : pairing.Consistent count place) (lexemes : List Lexeme)
    (hcount : place + lexemes.length = count) (hopen : pairing.unclosed[depth]? = some i) :
    (pairing.run place lexemes).partners[i]? =
      some ((afterPartner? depth lexemes).map fun rest => count - rest.length - 1) := by
  have hmem := List.mem_of_getElem? hopen
  have hi := hgood.lt_place i hmem
  have hnone := hgood.unpaired i (by omega) (.inl hmem)
  induction lexemes generalizing pairing place depth with
  | nil => exact hnone
  | cons lexeme rest ih =>
      have hnext := hgood.step lexeme
      have hcount' : place + 1 + rest.length = count := by
        rw [List.length_cons] at hcount
        omega
      have hlater : i < place + 1 := Nat.lt_succ_of_lt hi
      rw [run_cons]
      rcases lexeme.paren_cases with hkind | hkind | hboundary | hinert
      · rw [step_of_open pairing place hkind] at hnext ⊢
        rw [afterPartner?_of_open rest hkind]
        exact ih hnext hcount' (by simpa using hopen) (List.mem_cons_of_mem _ hmem) hlater hnone
      · cases hunclosed : pairing.unclosed with
        | nil => simp [hunclosed] at hopen
        | cons start outer =>
            rw [step_of_close_cons pairing place hkind hunclosed] at hnext ⊢
            have hnodup := hgood.nodup
            rw [hunclosed] at hopen hnodup
            obtain ⟨hstart, _⟩ := List.nodup_cons.1 hnodup
            cases depth with
            | zero =>
                have heq : start = i := by simpa using hopen
                subst heq
                have hsize : start < pairing.partners.size := by
                  rw [hgood.size_eq]
                  omega
                rw [partners_run_of_notMem hlater hstart, afterPartner?_zero_of_close rest hkind]
                simp only [Option.map_some]
                rw [Array.getElem?_setIfInBounds_self_of_lt hsize]
                congr 2
                omega
            | succ depth =>
                have houter : outer[depth]? = some i := by simpa using hopen
                have hmemOuter := List.mem_of_getElem? houter
                have hne : start ≠ i := by
                  rintro rfl
                  exact hstart hmemOuter
                rw [afterPartner?_succ_of_close rest hkind]
                refine ih hnext hcount' houter hmemOuter hlater ?_
                rw [Array.getElem?_setIfInBounds_ne hne, hnone]
      · rw [step_of_isBoundary pairing place hboundary, afterPartner?_of_isBoundary rest hboundary,
          partners_run_of_notMem hlater (by simp)]
        exact hnone
      · rw [step_of_isInert pairing place hinert] at hnext ⊢
        rw [afterPartner?_of_isInert rest hinert]
        exact ih hnext hcount' hopen hmem hlater hnone

theorem Consistent.step_of_not_open
    {count : Nat} (hgood : pairing.Consistent count place) (hplace : place < count)
    {lexeme : Lexeme} (hkind : lexeme.kind ≠ .punctuation .openParen) :
    place ∉ (pairing.step lexeme place).unclosed ∧
      (pairing.step lexeme place).partners[place]? = some none := by
  have hfresh : place ∉ pairing.unclosed := fun hmem =>
    Nat.lt_irrefl _ (hgood.lt_place place hmem)
  have hnone := hgood.unpaired place hplace (.inr (Nat.le_refl _))
  rcases pairing.step_cases place lexeme with
    ⟨hopen, _⟩ | ⟨start, outer, _, hunclosed, hstep⟩ | ⟨_, hstep⟩ | ⟨_, hstep⟩
  · exact absurd hopen hkind
  · rw [hstep]
    rw [hunclosed, List.mem_cons, not_or] at hfresh
    refine ⟨hfresh.2, ?_⟩
    rw [Array.getElem?_setIfInBounds_ne (Ne.symm hfresh.1), hnone]
  · rw [hstep]
    exact ⟨by simp, hnone⟩
  · rw [hstep]
    exact ⟨hfresh, hnone⟩

theorem consistent_empty (count : Nat) :
    (⟨Array.replicate count none, []⟩ : Pairing).Consistent count 0 := by
  refine ⟨by simp, List.nodup_nil, by simp, ?_⟩
  intro i hi _
  simp [hi]

end Pairing

end QasmHighlight
