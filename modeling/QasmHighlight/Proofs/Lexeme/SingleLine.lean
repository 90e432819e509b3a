import QasmHighlight.Lexeme.Piece
import QasmHighlight.Proofs.Text.LinePosition

/-!
# Pieces that keep to one line

Every piece but a block comment lies on one line.  Each reader of a lexeme is
shown to stop before a line break: runs of characters because no class of
characters contains one, strings because what the search for the closing quote
passes over is a body without one, and operators by inspection of their list.  A
block comment may run over lines, but it never ends between the CR and the LF of
one break.
-/

namespace QasmHighlight

open Text

namespace Text

theorem isBlank_of_isBreak {c : Char} (hc : isBreak c = true) : isBlank c = true := by
  rcases isBreak_eq_true_iff.1 hc with rfl | rfl <;> decide

theorem not_isBreak_of_not_isBlank {c : Char} (hc : isBlank c = false) : isBreak c = false := by
  by_contra hbreak
  have hblank := isBlank_of_isBreak (Bool.not_eq_false _ ▸ hbreak)
  rw [hc] at hblank
  contradiction

private theorem takeWhile_not_isBreak
    {accept : Char → Bool} (hlf : accept '\n' = false) (hcr : accept '\r' = false)
    (text : List Char) : ∀ c ∈ text.takeWhile accept, isBreak c = false := by
  intro c hc
  have haccepted := List.mem_takeWhile_imp hc
  rw [isBreak_eq_false_iff]
  constructor
  · rintro rfl
    rw [hlf] at haccepted
    contradiction
  · rintro rfl
    rw [hcr] at haccepted
    contradiction

end Text

namespace Lexeme

theorem takeWhile_continuesName_not_isBreak (text : List Char) :
    ∀ c ∈ text.takeWhile continuesName, isBreak c = false :=
  takeWhile_not_isBreak (by decide) (by decide) text

private theorem takeWhile_isDigit_not_isBreak (text : List Char) :
    ∀ c ∈ text.takeWhile Char.isDigit, isBreak c = false :=
  takeWhile_not_isBreak (by decide) (by decide) text

/-! ## Numerals -/

namespace Numeral

private theorem takeWhile_inDigits_not_isBreak (text : List Char) :
    ∀ c ∈ text.takeWhile inDigits, isBreak c = false :=
  takeWhile_not_isBreak (by decide) (by decide) text

theorem radixBody?_not_isBreak {text found : List Char} (hfound : radixBody? text = some found) :
    ∀ c ∈ found, isBreak c = false := by
  unfold radixBody? at hfound
  split at hfound
  · next letter rest =>
    split at hfound
    · cases hfound
    · next radix hradix =>
      split at hfound
      · cases hfound
        have hletter : isBreak letter = false := by
          rw [isBreak_eq_false_iff]
          constructor <;> rintro rfl <;> simp [Radix.ofLetter?] at hradix
        have hdigits : ∀ c ∈ rest.takeWhile fun c => radix.isDigit c || c == '_',
            isBreak c = false := by
          apply takeWhile_not_isBreak <;> cases radix <;> decide
        intro c hc
        rw [List.mem_cons, List.mem_cons] at hc
        rcases hc with rfl | rfl | hc
        · decide
        · exact hletter
        · exact hdigits c hc
      · cases hfound
  · cases hfound

theorem fraction_not_isBreak (text : List Char) :
    ∀ c ∈ fraction text, isBreak c = false := by
  intro c hc
  unfold fraction at hc
  split at hc
  · split at hc
    · rcases List.mem_cons.1 hc with rfl | hdigit
      · decide
      · exact takeWhile_inDigits_not_isBreak _ c hdigit
    · cases hc
  · cases hc

theorem sign_not_isBreak (text : List Char) : ∀ c ∈ sign text, isBreak c = false := by
  intro c hc
  unfold sign at hc
  split at hc
  · rw [List.mem_singleton.1 hc]
    decide
  · rw [List.mem_singleton.1 hc]
    decide
  · cases hc

theorem exponent_not_isBreak (text : List Char) :
    ∀ c ∈ exponent text, isBreak c = false := by
  intro c hc
  unfold exponent at hc
  split at hc
  · cases hc
  · next mark rest =>
    dsimp only at hc
    split at hc
    · next hexponent =>
      rw [List.mem_cons, List.mem_append] at hc
      rcases hc with rfl | hsign | hdigit
      · simp only [Bool.and_eq_true, Bool.or_eq_true, beq_iff_eq] at hexponent
        rcases hexponent.1 with rfl | rfl <;> decide
      · exact sign_not_isBreak rest c hsign
      · exact takeWhile_inDigits_not_isBreak _ c hdigit
    · cases hc

theorem body_not_isBreak (text : List Char) : ∀ c ∈ body text, isBreak c = false := by
  unfold body
  cases hradix : radixBody? text with
  | some found => exact radixBody?_not_isBreak hradix
  | none =>
      intro c hc
      rw [Option.getD_none, decimalBody, List.mem_append, List.mem_append] at hc
      rcases hc with (hwhole | hfraction) | hexponent
      · exact takeWhile_inDigits_not_isBreak text c hwhole
      · exact fraction_not_isBreak _ c hfraction
      · exact exponent_not_isBreak _ c hexponent

theorem read_not_isBreak (text : List Char) : ∀ c ∈ read text, isBreak c = false := by
  intro c hc
  rcases List.mem_append.1 hc with hbody | hsuffix
  · exact body_not_isBreak text c hbody
  · unfold suffix at hsuffix
    dsimp only at hsuffix
    split at hsuffix
    · exact takeWhile_continuesName_not_isBreak _ c hsuffix
    · cases hsuffix

end Numeral

/-! ## Delimited lexemes and operators -/

/-- What may stand between the quotes of a string. -/
inductive StringBody : List Char → Prop
  | nil : StringBody []
  | plain {c : Char} {rest : List Char} : c ≠ '"' → c ≠ '\\' → c ≠ '\r' → c ≠ '\n' →
      StringBody rest → StringBody (c :: rest)
  | escape {c : Char} {rest : List Char} : c ≠ '\r' → c ≠ '\n' →
      StringBody rest → StringBody ('\\' :: c :: rest)

theorem StringBody.not_isBreak {body : List Char} (hbody : StringBody body) :
    ∀ c ∈ body, isBreak c = false := by
  induction hbody with
  | nil => simp
  | plain _ _ hcr hlf _ ih =>
      rw [List.forall_mem_cons]
      exact ⟨isBreak_eq_false_iff.2 ⟨hlf, hcr⟩, ih⟩
  | escape hcr hlf _ ih =>
      rw [List.forall_mem_cons, List.forall_mem_cons]
      exact ⟨by decide, isBreak_eq_false_iff.2 ⟨hlf, hcr⟩, ih⟩

theorem closingQuote?_append_quote {body : List Char} (hbody : StringBody body)
    (before : Nat) (after : List Char) :
    closingQuote? before (body ++ '"' :: after) = some (before + body.length + 1) := by
  induction hbody generalizing before with
  | nil => rfl
  | plain hquote hescape hcr hlf _ ih =>
      have hbreak := isBreak_eq_false_iff.2 ⟨hlf, hcr⟩
      rw [List.cons_append, closingQuote?, hbreak, if_neg Bool.false_ne_true, ih, List.length_cons]
      · congr 1
        omega
      · exact hquote
      · exact hescape
  | escape hcr hlf _ ih =>
      have hbreak := isBreak_eq_false_iff.2 ⟨hlf, hcr⟩
      rw [List.cons_append, List.cons_append, closingQuote?, hbreak, if_neg Bool.false_ne_true, ih,
        List.length_cons, List.length_cons]
      congr 1
      omega

theorem exists_body_of_closingQuote? {before count : Nat} {text : List Char}
    (hfound : closingQuote? before text = some count) :
    ∃ body after, StringBody body ∧ text = body ++ '"' :: after ∧
      count = before + body.length + 1 := by
  fun_induction closingQuote? before text with
  | case1 => cases hfound
  | case2 before rest =>
      cases hfound
      exact ⟨[], rest, .nil, rfl, rfl⟩
  | case3 => cases hfound
  | case4 => cases hfound
  | case5 before c more hbreak ih =>
      obtain ⟨hlf, hcr⟩ := isBreak_eq_false_iff.1 (eq_false_of_ne_true hbreak)
      obtain ⟨body, after, hbody, rfl, rfl⟩ := ih hfound
      refine ⟨'\\' :: c :: body, after, .escape hcr hlf hbody, rfl, ?_⟩
      simp only [List.length_cons]
      omega
  | case6 => cases hfound
  | case7 before c rest hquote hescape hbreak ih =>
      obtain ⟨hlf, hcr⟩ := isBreak_eq_false_iff.1 (eq_false_of_ne_true hbreak)
      obtain ⟨body, after, hbody, rfl, rfl⟩ := ih hfound
      refine ⟨c :: body, after, .plain hquote hescape hcr hlf hbody, rfl, ?_⟩
      simp only [List.length_cons]
      omega

/-- The search for the closing quote of a string finds the end of its body. -/
theorem closingQuote?_eq_some_iff {before count : Nat} {text : List Char} :
    closingQuote? before text = some count ↔
      ∃ body after, StringBody body ∧ text = body ++ '"' :: after ∧
        count = before + body.length + 1 := by
  constructor
  · exact exists_body_of_closingQuote?
  · rintro ⟨body, after, hbody, rfl, rfl⟩
    exact closingQuote?_append_quote hbody before after

theorem closingQuote?_not_isBreak {before count : Nat} {text : List Char}
    (hfound : closingQuote? before text = some count) :
    before ≤ count ∧ ∀ c ∈ text.take (count - before), isBreak c = false := by
  obtain ⟨body, after, hbody, rfl, rfl⟩ := closingQuote?_eq_some_iff.1 hfound
  have hcount : before + body.length + 1 - before = body.length + 1 := by omega
  refine ⟨by omega, ?_⟩
  intro c hc
  rw [hcount, List.take_length_add_append, List.mem_append] at hc
  rcases hc with hinside | hquote
  · exact hbody.not_isBreak c hinside
  · have hc : c = '"' := by simpa using hquote
    rw [hc]
    decide

private theorem operators_not_isBreak : ∀ op ∈ operators, ∀ c ∈ op, isBreak c = false := by
  have hall : (operators.all fun op => op.all fun c => !isBreak c) = true := by decide
  simpa using hall

theorem exists_append_of_commentEnd? {before count : Nat} {text : List Char}
    (hfound : commentEnd? before text = some count) :
    ∃ inside after, text = inside ++ '*' :: '/' :: after ∧ count = before + inside.length := by
  induction text generalizing before with
  | nil => cases hfound
  | cons c rest ih =>
      unfold commentEnd? at hfound
      split at hfound
      · next hend =>
        cases hfound
        obtain ⟨rfl, hslash⟩ := hend
        obtain ⟨after, rfl⟩ := List.head?_eq_some_iff.1 hslash
        exact ⟨[], after, rfl, rfl⟩
      · obtain ⟨inside, after, rfl, rfl⟩ := ih hfound
        refine ⟨c :: inside, after, rfl, ?_⟩
        rw [List.length_cons]
        omega

end Lexeme

/-! ## The first piece -/

namespace Piece

open Lexeme

/-- A piece that keeps to its line: one character that belongs to no lexeme, or
the characters of a lexeme. -/
def IsPlain : Piece → Prop
  | .space c => isBlank c = true
  | .stray c => isBlank c = false
  | .lexeme _ chars => chars ≠ [] ∧ ∀ c ∈ chars, isBreak c = false
  | .blockComment _ _ => False

private theorem isPlain_lexeme_cons
    (kind : LexemeKind) {c : Char} {rest : List Char}
    (hc : isBreak c = false) (hrest : ∀ d ∈ rest, isBreak d = false) :
    (Piece.lexeme kind (c :: rest)).IsPlain := by
  refine ⟨List.cons_ne_nil c rest, ?_⟩
  intro d hd
  rcases List.mem_cons.1 hd with rfl | hd
  · exact hc
  · exact hrest d hd

theorem isPlain_ofString (rest : List Char) : (ofString rest).IsPlain := by
  have hquote : isBreak '"' = false := by decide
  unfold ofString
  split
  · next count hfound =>
    obtain ⟨_, hinside⟩ := closingQuote?_not_isBreak hfound
    exact isPlain_lexeme_cons _ hquote hinside
  · exact isPlain_lexeme_cons _ hquote (lineContent_not_isBreak rest)

theorem isPlain_ofSymbol {c : Char} (rest : List Char) (hc : isBlank c = false) :
    (ofSymbol c rest).IsPlain := by
  unfold ofSymbol
  split
  · next chars hfound =>
    have hmem : chars ∈ operators := List.mem_of_find?_eq_some hfound
    refine ⟨?_, operators_not_isBreak chars hmem⟩
    rintro rfl
    exact nil_notMem_operators hmem
  · split
    · exact isPlain_lexeme_cons _ (not_isBreak_of_not_isBlank hc) (by simp)
    · exact hc

theorem isPlain_first_or_blockComment (c : Char) (rest : List Char) :
    (first c rest).IsPlain ∨
      ∃ more, c :: rest = '/' :: '*' :: more ∧ first c rest = ofComment more := by
  unfold first
  split
  · next hblank => exact .inl hblank
  next hblank =>
  have hc : isBlank c = false := eq_false_of_ne_true hblank
  have hcBreak : isBreak c = false := not_isBreak_of_not_isBlank hc
  split
  · exact .inl (isPlain_lexeme_cons _ hcBreak (lineContent_not_isBreak rest))
  split
  · next hopen =>
    obtain ⟨rfl, hstar⟩ := hopen
    obtain ⟨more, rfl⟩ := List.head?_eq_some_iff.1 hstar
    exact .inr ⟨more, rfl, rfl⟩
  refine .inl ?_
  split
  · exact isPlain_ofString rest
  split
  · next hnumeral => exact ⟨Numeral.read_ne_nil hnumeral, Numeral.read_not_isBreak _⟩
  split
  · exact isPlain_lexeme_cons _ hcBreak (takeWhile_isDigit_not_isBreak rest)
  split
  · exact isPlain_lexeme_cons _ hcBreak (takeWhile_continuesName_not_isBreak rest)
  · exact isPlain_ofSymbol rest hc

/-- A block comment ends with its delimiter or with the text, so never inside a
CRLF. -/
theorem ofComment_not_splitsCrlf (more : List Char) :
    ∃ chars closed, ofComment more = .blockComment chars closed ∧
      ¬ SplitsCrlf chars (('/' :: '*' :: more).drop chars.length).head? := by
  unfold ofComment
  split
  · next count hfound =>
    refine ⟨_, _, rfl, ?_⟩
    obtain ⟨inside, after, rfl, rfl⟩ := exists_append_of_commentEnd? hfound
    have hclosed : '/' :: '*' :: (inside ++ '*' :: '/' :: after).take (0 + inside.length + 2) =
        ('/' :: '*' :: (inside ++ ['*'])) ++ ['/'] := by
      rw [Nat.zero_add, List.take_length_add_append]
      simp
    rintro ⟨hcr, _⟩
    rw [hclosed, List.getLast?_concat] at hcr
    cases hcr
  · refine ⟨_, _, rfl, ?_⟩
    rintro ⟨_, hlf⟩
    rw [List.drop_length] at hlf
    cases hlf

end Piece
end QasmHighlight
