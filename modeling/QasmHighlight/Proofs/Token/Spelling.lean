import QasmHighlight.Proofs.Lexeme.OwnLines
import QasmHighlight.Proofs.Token.Context

/-!
# Layout has no bearing on lexemes and classes

The class of a lexeme is decided by the kinds and the texts of lexemes; no reader of
them asks where they stand.  A source laid out again with each lexeme on a line of
its own has lexemes of the same kinds and texts, and so the same classes.
-/

namespace QasmHighlight

open Text

/-- A lexeme of which only the kind and the text matter. -/
def Lexeme.bare (kind : LexemeKind) (text : String) : Lexeme :=
  ⟨kind, text, .start, 0⟩

/-- The lexeme without its place in the source. -/
def Lexeme.unplaced (lexeme : Lexeme) : Lexeme :=
  .bare lexeme.kind lexeme.text

section

variable {f : Lexeme → Lexeme} (hkind : ∀ lexeme, (f lexeme).kind = lexeme.kind)
include hkind

theorem afterPartner?_map (depth : Nat) (lexemes : List Lexeme) :
    afterPartner? depth (lexemes.map f) = (afterPartner? depth lexemes).map (·.map f) := by
  induction lexemes generalizing depth with
  | nil => rfl
  | cons lexeme rest ih =>
      have hsame := hkind lexeme
      rw [List.map_cons]
      rcases lexeme.paren_cases with hopen | hclose | hboundary | hinert
      · rw [afterPartner?_of_open _ (hsame.trans hopen), afterPartner?_of_open rest hopen, ih]
      · have hclose' := hsame.trans hclose
        cases depth with
        | zero =>
            rw [afterPartner?_zero_of_close _ hclose', afterPartner?_zero_of_close _ hclose,
              Option.map_some]
        | succ depth =>
            rw [afterPartner?_succ_of_close _ hclose', afterPartner?_succ_of_close _ hclose, ih]
      · have hboundary' : (f lexeme).isBoundary = true := by
          rw [← hboundary, Lexeme.isBoundary, Lexeme.isBoundary, hsame]
        rw [afterPartner?_of_isBoundary _ hboundary', afterPartner?_of_isBoundary _ hboundary,
          Option.map_none]
      · have hinert' : (f lexeme).IsInert := by
          refine ⟨hsame.trans_ne hinert.not_open, hsame.trans_ne hinert.not_close, ?_⟩
          rw [← hinert.not_boundary, Lexeme.isBoundary, Lexeme.isBoundary, hsame]
        rw [afterPartner?_of_isInert _ hinert', afterPartner?_of_isInert _ hinert, ih]

variable (hoperand : ∀ lexeme, (f lexeme).isOperand = lexeme.isOperand)
include hoperand

theorem operandFollows_map (rest : List Lexeme) :
    operandFollows (rest.map f) = operandFollows rest := by
  have hcomment : (fun lexeme => !Lexeme.isComment lexeme) ∘ f = fun lexeme =>
      !lexeme.isComment := by
    funext lexeme
    simp [Lexeme.isComment, hkind]
  unfold operandFollows
  rw [List.find?_map, Option.any_map, hcomment]
  simp only [hoperand]

/-- A search for a gate call sees kinds and operands only. -/
theorem headsCall_map (rest : List Lexeme) : headsCall (rest.map f) = headsCall rest := by
  have hdrop : (rest.map f).dropWhile Lexeme.isComment =
      (rest.dropWhile Lexeme.isComment).map f := by
    have hcomment : Lexeme.isComment ∘ f = Lexeme.isComment := by
      funext lexeme
      simp [Lexeme.isComment, hkind]
    rw [List.dropWhile_map, hcomment]
  unfold headsCall
  rw [hdrop]
  cases rest.dropWhile Lexeme.isComment with
  | nil => rfl
  | cons next more =>
      have hany : ((afterPartner? 0 more).map (·.map f)).any operandFollows =
          (afterPartner? 0 more).any operandFollows := by
        rw [Option.any_map]
        congr 1
        funext later
        exact operandFollows_map hkind hoperand later
      simp only [List.map_cons, afterPartner?_map hkind, hany, hkind, hoperand]

end

theorem classesFrom_map_unplaced (context : Context) (lexemes : List Lexeme) :
    classesFrom context (lexemes.map Lexeme.unplaced) = classesFrom context lexemes := by
  induction lexemes generalizing context with
  | nil => rfl
  | cons lexeme rest ih =>
      have hstep : ∀ call, context.step lexeme.unplaced call = context.step lexeme call :=
        fun call => rfl
      have hcall := headsCall_map (f := Lexeme.unplaced) (fun _ => rfl) (fun _ => rfl) rest
      simp only [List.map_cons, classesFrom, hcall, hstep, ih]

theorem classesFrom_eq_of_spelling {lexemes others : List Lexeme}
    (hspelling : lexemes.map Lexeme.spelling = others.map Lexeme.spelling) (context : Context) :
    classesFrom context lexemes = classesFrom context others := by
  have hunplaced : lexemes.map Lexeme.unplaced = others.map Lexeme.unplaced := by
    have hmap := congrArg (List.map fun x : LexemeKind × String => Lexeme.bare x.1 x.2) hspelling
    rwa [List.map_map, List.map_map] at hmap
  rw [← classesFrom_map_unplaced, hunplaced, classesFrom_map_unplaced]

theorem map_tokenClass_classify (lexemes : List Lexeme) :
    (classify lexemes).map (·.tokenClass) = classesFrom {} lexemes := by
  have hlength := (length_classesFrom {} lexemes).le
  rw [classify_eq_zipWith, ← List.map_uncurry_zip_eq_zipWith, List.map_map]
  exact List.map_snd_zip hlength

/-- A source laid out again, each lexeme on a line of its own, has as many lexemes, of
the same kinds and texts in the same order and with the same classes, and laying
it out once more changes nothing. -/
theorem scan_onOwnLines (source : List Char) :
    let lexemes := (scan source).lexemes
    let again := (scan (Lexeme.onOwnLines lexemes)).lexemes
    again.length = lexemes.length ∧
    again.map (·.kind) = lexemes.map (·.kind) ∧
    again.map (·.text) = lexemes.map (·.text) ∧
    (classify again).map (·.tokenClass) = (classify lexemes).map (·.tokenClass) ∧
    Lexeme.onOwnLines again = Lexeme.onOwnLines lexemes := by
  intro lexemes again
  have hspelling : again.map Lexeme.spelling = lexemes.map Lexeme.spelling :=
    Piece.map_spelling_placed_onOwnLines .start .start source
  have hlength : again.length = lexemes.length := by
    simpa using congrArg List.length hspelling
  have hkinds : again.map (·.kind) = lexemes.map (·.kind) := by
    simpa [Function.comp_def, Lexeme.spelling] using congrArg (List.map Prod.fst) hspelling
  have htexts : again.map (·.text) = lexemes.map (·.text) := by
    simpa [Function.comp_def, Lexeme.spelling] using congrArg (List.map Prod.snd) hspelling
  refine ⟨hlength, hkinds, htexts, ?_, ?_⟩
  · rw [map_tokenClass_classify, map_tokenClass_classify]
    exact classesFrom_eq_of_spelling hspelling {}
  · have hlists := congrArg (List.map String.toList) htexts
    rw [List.map_map, List.map_map] at hlists
    exact congrArg (List.intercalate ['\n']) hlists

end QasmHighlight
