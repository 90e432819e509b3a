import QasmHighlight.Proofs.Lexeme.Alone
import QasmHighlight.Proofs.Lexeme.Blanking
import QasmHighlight.Proofs.Lexeme.LineEnding
import QasmHighlight.Proofs.Lexeme.LineJoin

/-!
# Lexemes on lines of their own

Blanks, line breaks and stray characters around lexemes have no part in what the
lexemes are.  Writing the texts of all lexemes of a source below each other and
scanning again gives lexemes of the same kinds and texts.  A lexeme on its own
line is read alone.  A block comment is written without its empty lines; it is
still closed by the same `*/`, or by none, since no `*/` runs over a line break.
-/

namespace QasmHighlight

open Text

namespace Text

/-! ## Lines put together -/

private theorem intercalate_append {texts more : List (List Char)}
    (htexts : texts ≠ []) (hmore : more ≠ []) (between : List Char) :
    between.intercalate (texts ++ more) =
      between.intercalate texts ++ between ++ between.intercalate more := by
  induction texts with
  | nil => exact absurd rfl htexts
  | cons text rest ih =>
      cases rest with
      | nil =>
          rw [List.singleton_append, List.intercalate_cons_of_ne_nil hmore,
            List.intercalate_singleton]
      | cons next later =>
          have hrest := ih (List.cons_ne_nil next later)
          rw [List.cons_append, List.cons_append, List.intercalate_cons_cons,
            List.intercalate_cons_cons, ← List.cons_append, hrest]
          simp only [List.append_assoc]

theorem lines_intercalate {texts : List (List Char)} (hne : texts ≠ [])
    (htexts : ∀ text ∈ texts, ∀ c ∈ text, isBreak c = false) :
    lines (['\n'].intercalate texts) = texts := by
  induction texts with
  | nil => exact absurd rfl hne
  | cons text rest ih =>
      have htext := htexts text List.mem_cons_self
      cases rest with
      | nil =>
          have hread := read?_afterContent_of_not_isBreak htext
          rw [List.intercalate_singleton, lines_of_read?_eq_none hread,
            lineContent_eq_self_of_read?_eq_none hread]
      | cons next later =>
          have hrest := ih (List.cons_ne_nil next later) fun line hline =>
            htexts line (List.mem_cons_of_mem text hline)
          have hread : LineBreak.read? (afterContent (text ++ LineBreak.lf.chars ++ _)) = _ :=
            read?_afterContent_append_chars htext (['\n'].intercalate (next :: later)) nofun
          have hlines := lines_of_read?_eq_some hread
          rw [lineContent_append_chars htext, hrest] at hlines
          rw [List.intercalate_cons_cons]
          exact hlines

private theorem lines_not_isBreak (text : List Char) :
    ∀ line ∈ lines text, ∀ c ∈ line, isBreak c = false := by
  induction text using Piece.ofCommentLines.induct with
  | case1 text hread =>
      rw [lines_of_read?_eq_none hread]
      rintro line hline
      rw [List.mem_singleton.1 hline]
      exact lineContent_not_isBreak text
  | case2 text b rest hread ih =>
      rw [lines_of_read?_eq_some hread]
      rintro line hline
      rcases List.mem_cons.1 hline with rfl | hline
      · exact lineContent_not_isBreak text
      · exact ih line hline

/-! ## Empty lines left out -/

def breakBefore : List Char → List Char
  | [] => []
  | c :: rest => if isBreak c then c :: rest else '\n' :: c :: rest

/-- The text with every run of line breaks written as one LF, and none at its end. -/
def squeezed : List Char → List Char
  | [] => []
  | c :: rest => if isBreak c then breakBefore (squeezed rest) else c :: squeezed rest

private theorem breakBefore_breakBefore (text : List Char) :
    breakBefore (breakBefore text) = breakBefore text := by
  cases text with
  | nil => rfl
  | cons c rest =>
      by_cases hc : isBreak c = true
      · simp [breakBefore, hc]
      · have hlf : isBreak '\n' = true := by decide
        simp [breakBefore, hc, hlf]

theorem squeezed_cons_of_isBreak {c : Char} (hc : isBreak c = true) (rest : List Char) :
    squeezed (c :: rest) = breakBefore (squeezed rest) := by
  rw [squeezed, if_pos hc]

theorem squeezed_cons_of_not_isBreak {c : Char} (hc : isBreak c = false) (rest : List Char) :
    squeezed (c :: rest) = c :: squeezed rest := by
  rw [squeezed, if_neg (by simp [hc])]

theorem squeezed_append_of_not_isBreak {content : List Char}
    (hcontent : ∀ c ∈ content, isBreak c = false) (rest : List Char) :
    squeezed (content ++ rest) = content ++ squeezed rest := by
  induction content with
  | nil => rfl
  | cons c more ih =>
      have hmore := ih fun d hd => hcontent d (List.mem_cons_of_mem c hd)
      rw [List.cons_append, squeezed_cons_of_not_isBreak (hcontent c List.mem_cons_self), hmore,
        List.cons_append]

theorem squeezed_of_read? {text rest : List Char} {b : LineBreak}
    (hread : LineBreak.read? text = some (b, rest)) :
    squeezed text = breakBefore (squeezed rest) := by
  have hcr : isBreak '\r' = true := by decide
  have hlf : isBreak '\n' = true := by decide
  rw [LineBreak.eq_of_read? hread]
  cases b with
  | lf => exact squeezed_cons_of_isBreak hlf rest
  | cr => exact squeezed_cons_of_isBreak hcr rest
  | crlf =>
      rw [LineBreak.chars, List.cons_append, List.singleton_append, squeezed_cons_of_isBreak hcr,
        squeezed_cons_of_isBreak hlf, breakBefore_breakBefore]

theorem breakBefore_intercalate {line : List Char} (hne : line ≠ [])
    (hline : ∀ c ∈ line, isBreak c = false) (later : List (List Char)) :
    breakBefore (['\n'].intercalate (line :: later)) =
      '\n' :: ['\n'].intercalate (line :: later) := by
  obtain ⟨c, rest, rfl⟩ := List.exists_cons_of_ne_nil hne
  have hc : ¬ isBreak c = true := by simp [hline c List.mem_cons_self]
  cases later with
  | nil => rw [List.intercalate_singleton, breakBefore, if_neg hc]
  | cons next more =>
      rw [List.intercalate_cons_cons, List.cons_append, List.cons_append, breakBefore, if_neg hc]

/-- Squeezing keeps the first line, and of the later ones those that are not
empty. -/
theorem exists_lines_eq_cons (text : List Char) :
    ∃ later, lines text = lineContent text :: later ∧
      squeezed text = ['\n'].intercalate (lineContent text :: later.filter (!·.isEmpty)) := by
  induction text using Piece.ofCommentLines.induct with
  | case1 text hread =>
      refine ⟨[], lines_of_read?_eq_none hread, ?_⟩
      have hcontent := squeezed_append_of_not_isBreak (lineContent_not_isBreak text) []
      rw [List.append_nil, squeezed, List.append_nil] at hcontent
      rw [lineContent_eq_self_of_read?_eq_none hread] at hcontent ⊢
      rw [List.filter_nil, List.intercalate_singleton, hcontent]
  | case2 text b rest hread ih =>
      obtain ⟨later, hlines, hrest⟩ := ih
      refine ⟨lines rest, lines_of_read?_eq_some hread, ?_⟩
      have htext := squeezed_append_of_not_isBreak (lineContent_not_isBreak text)
        (afterContent text)
      rw [lineContent_append_afterContent, squeezed_of_read? hread, hrest] at htext
      rw [htext, hlines]
      by_cases hfirst : lineContent rest = []
      · rw [hfirst, List.filter_cons_of_neg (by simp)]
        cases later.filter (!·.isEmpty) with
        | nil =>
            rw [List.intercalate_singleton, List.intercalate_singleton, breakBefore,
              List.append_nil]
        | cons line more =>
            rw [List.intercalate_cons_cons, List.intercalate_cons_cons, List.nil_append,
              List.singleton_append, breakBefore, if_pos (by decide), List.append_assoc,
              List.singleton_append]
      · rw [List.filter_cons_of_pos (by simpa using hfirst), List.intercalate_cons_cons,
          breakBefore_intercalate hfirst (lineContent_not_isBreak rest), List.append_assoc,
          List.singleton_append]

theorem squeezed_eq_intercalate {text : List Char} (hfirst : lineContent text ≠ []) :
    squeezed text = ['\n'].intercalate ((lines text).filter (!·.isEmpty)) := by
  obtain ⟨later, hlines, hsqueezed⟩ := exists_lines_eq_cons text
  rw [hsqueezed, hlines, List.filter_cons_of_pos (by simpa using hfirst)]

theorem filter_lines_squeezed (text : List Char) :
    (lines (squeezed text)).filter (!·.isEmpty) = (lines text).filter (!·.isEmpty) := by
  obtain ⟨later, hlines, hsqueezed⟩ := exists_lines_eq_cons text
  have hplain : ∀ line ∈ lineContent text :: later.filter (!·.isEmpty),
      ∀ c ∈ line, isBreak c = false := by
    intro line hline
    apply lines_not_isBreak text line
    rw [hlines]
    exact List.mem_cons.2 ((List.mem_cons.1 hline).imp_right List.mem_of_mem_filter)
  rw [hsqueezed, lines_intercalate (List.cons_ne_nil _ _) hplain, hlines, List.filter_cons,
    List.filter_cons, List.filter_filter]
  simp only [Bool.and_self]

private theorem breakBefore_eq_or (text : List Char) :
    breakBefore text = text ∨ breakBefore text = '\n' :: text := by
  cases text with
  | nil => exact .inl rfl
  | cons c rest =>
      by_cases hc : isBreak c = true
      · exact .inl (by rw [breakBefore, if_pos hc])
      · exact .inr (by rw [breakBefore, if_neg hc])

private theorem isBreak_of_head?_breakBefore {text : List Char} {c : Char}
    (hhead : (breakBefore text).head? = some c) : isBreak c = true := by
  cases text with
  | nil => cases hhead
  | cons d rest =>
      rw [breakBefore] at hhead
      split at hhead
      · next hd =>
        cases hhead
        exact hd
      · cases hhead
        decide

theorem head?_of_head?_squeezed {text : List Char} {c : Char} (hc : isBreak c = false)
    (hhead : (squeezed text).head? = some c) : text.head? = some c := by
  cases text with
  | nil => cases hhead
  | cons d rest =>
      by_cases hd : isBreak d = true
      · rw [squeezed_cons_of_isBreak hd] at hhead
        have hbreak := isBreak_of_head?_breakBefore hhead
        rw [hc] at hbreak
        contradiction
      · rw [squeezed_cons_of_not_isBreak (eq_false_of_ne_true hd)] at hhead
        exact hhead

end Text

/-! ## Block comments without their empty lines -/

namespace Lexeme

theorem commentEnd?_squeezed_of_eq_none {before : Nat} {text : List Char}
    (hopen : commentEnd? before text = none) (before' : Nat) :
    commentEnd? before' (squeezed text) = none := by
  induction text generalizing before before' with
  | nil => rfl
  | cons c rest ih =>
      by_cases hc : isBreak c = true
      · rw [commentEnd?_cons_of_isBreak hc] at hopen
        rw [squeezed_cons_of_isBreak hc]
        rcases breakBefore_eq_or (squeezed rest) with hsame | hbreak
        · rw [hsame]
          exact ih hopen before'
        · rw [hbreak, commentEnd?_cons_of_isBreak (by decide)]
          exact ih hopen _
      · rw [commentEnd?] at hopen
        split at hopen
        · cases hopen
        · next hnot =>
          have hnot' : ¬ (c = '*' ∧ (squeezed rest).head? = some '/') := fun h =>
            hnot ⟨h.1, head?_of_head?_squeezed (by decide) h.2⟩
          rw [squeezed_cons_of_not_isBreak (eq_false_of_ne_true hc), commentEnd?, if_neg hnot']
          exact ih hopen _

/-- The `*/` that closes a comment closes it without its empty lines. -/
theorem commentEnd?_squeezed_of_eq_some {before : Nat} {inside after : List Char}
    (hfound : commentEnd? before (inside ++ '*' :: '/' :: after) = some (before + inside.length)) :
    ∃ kept, squeezed (inside ++ ['*', '/']) = kept ++ ['*', '/'] ∧
      ∀ before', commentEnd? before' (kept ++ ['*', '/']) = some (before' + kept.length) := by
  induction inside generalizing before with
  | nil => exact ⟨[], rfl, fun before' => rfl⟩
  | cons c rest ih =>
      rw [List.cons_append] at hfound
      have hcount : before + (c :: rest).length = before + 1 + rest.length := by
        rw [List.length_cons]
        omega
      rw [hcount] at hfound
      by_cases hc : isBreak c = true
      · rw [commentEnd?_cons_of_isBreak hc] at hfound
        obtain ⟨kept, hkept, hend⟩ := ih hfound
        rw [List.cons_append, squeezed_cons_of_isBreak hc, hkept]
        rcases breakBefore_eq_or (kept ++ ['*', '/']) with hsame | hbreak
        · exact ⟨kept, hsame, hend⟩
        · refine ⟨'\n' :: kept, hbreak, ?_⟩
          intro before'
          rw [List.cons_append, commentEnd?_cons_of_isBreak (by decide), hend, List.length_cons]
          congr 1
          omega
      · rw [commentEnd?] at hfound
        split at hfound
        · rw [Option.some.injEq] at hfound
          omega
        · next hnot =>
          obtain ⟨kept, hkept, hend⟩ := ih hfound
          refine ⟨c :: kept, ?_, ?_⟩
          · rw [List.cons_append, squeezed_cons_of_not_isBreak (eq_false_of_ne_true hc), hkept,
              List.cons_append]
          · intro before'
            have hnot' : ¬ (c = '*' ∧ (kept ++ ['*', '/']).head? = some '/') := by
              rintro ⟨hstar, hslash⟩
              rw [← hkept] at hslash
              have hhead := head?_of_head?_squeezed (by decide) hslash
              rw [List.head?_append] at hhead
              exact hnot ⟨hstar, by rw [List.head?_append]; exact hhead⟩
            rw [List.cons_append, commentEnd?, if_neg hnot', hend, List.length_cons]
            congr 1
            omega

end Lexeme

namespace Piece

open Lexeme

theorem ofComment_squeezed (more : List Char) :
    ∃ inside closed, ofComment more = .blockComment ('/' :: '*' :: inside) closed ∧
      ofComment (squeezed inside) = .blockComment ('/' :: '*' :: squeezed inside) closed ∧
      (closed = false → inside = more) := by
  cases hend : commentEnd? 0 more with
  | none =>
      refine ⟨more, false, ?_, ?_, fun _ => rfl⟩
      · simp only [ofComment, hend]
      · simp only [ofComment, commentEnd?_squeezed_of_eq_none hend 0]
  | some count =>
      obtain ⟨inside, after, rfl, rfl⟩ := exists_append_of_commentEnd? hend
      obtain ⟨kept, hkept, hend'⟩ := commentEnd?_squeezed_of_eq_some hend
      have htake : ∀ text following : List Char,
          (text ++ '*' :: '/' :: following).take (0 + text.length + 2) = text ++ ['*', '/'] := by
        intro text following
        rw [Nat.zero_add, List.take_length_add_append]
        rfl
      refine ⟨inside ++ ['*', '/'], true, ?_, ?_, by simp⟩
      · simp only [ofComment, hend, htake]
      · simp only [ofComment, hkept, hend', htake]

private theorem placed_eq_singleton {c : Char} {inside : List Char} {piece : Piece}
    (hfirst : first c inside = piece) (htext : piece.text = c :: inside) (q : Position) :
    placed q (c :: inside) = [(q, piece)] := by
  rw [placed_cons q hfirst (by rw [htext, List.append_nil]), placed]

end Piece

/-! ## Sources laid out again -/

/-- What a lexeme is, wherever it stands. -/
def Lexeme.spelling (lexeme : Lexeme) : LexemeKind × String :=
  (lexeme.kind, lexeme.text)

/-- The texts of lexemes, each on a line of its own. -/
def Lexeme.onOwnLines (lexemes : List Lexeme) : List Char :=
  ['\n'].intercalate (lexemes.map (·.text.toList))

namespace Piece

open Lexeme

theorem map_spelling_fragments (p : Position) (chars : List Char) :
    (fragments p chars).map spelling =
      ((lines chars).filter (!·.isEmpty)).map fun line => (.comment, String.ofList line) := by
  have hlines : (lines chars).filter (!·.isEmpty) =
      ((lines chars).zipIdx.filter (!·.1.isEmpty)).map Prod.fst := by
    conv_lhs => rw [← List.zipIdx_map_fst 0 (lines chars), List.filter_map]
    rfl
  rw [hlines, fragments, List.map_map, List.map_map]
  rfl

theorem onOwnLines_fragments (p : Position) (chars : List Char) :
    onOwnLines (fragments p chars) = ['\n'].intercalate ((lines chars).filter (!·.isEmpty)) := by
  have hspelling := congrArg (List.map fun x : LexemeKind × String => x.2.toList)
    (map_spelling_fragments p chars)
  simp only [List.map_map, Function.comp_def, spelling, String.toList_ofList, List.map_id']
    at hspelling
  rw [onOwnLines, hspelling]

theorem onOwnLines_fragments_of_comment (p : Position) (inside : List Char) :
    onOwnLines (fragments p ('/' :: '*' :: inside)) = '/' :: '*' :: squeezed inside := by
  have hslash : isBreak '/' = false := by decide
  have hfirst : lineContent ('/' :: '*' :: inside) ≠ [] := by
    rw [lineContent_cons_of_not_isBreak hslash]
    exact List.cons_ne_nil _ _
  rw [onOwnLines_fragments, ← squeezed_eq_intercalate hfirst, squeezed_cons_of_not_isBreak hslash,
    squeezed_cons_of_not_isBreak (by decide)]

/-- The lexemes of a piece, laid out again, are one piece with the same lexemes.  It
is left open only if the piece was, and then nothing came after the piece. -/
theorem exists_placed_onOwnLines (p q : Position) {c : Char} {rest : List Char}
    (hsome : (first c rest).lexemes p ≠ []) :
    ∃ piece, placed q (onOwnLines ((first c rest).lexemes p)) = [(q, piece)] ∧
      (piece.lexemes q).map spelling = ((first c rest).lexemes p).map spelling ∧
      ((∃ chars, piece = .blockComment chars false) → (first c rest).text = c :: rest) := by
  rcases isPlain_first_or_blockComment c rest with hplain | ⟨more, hsource, hcomment⟩
  · obtain ⟨inside, hinside⟩ := exists_text_first_eq_cons c rest
    cases hpiece : first c rest with
    | space d => simp [hpiece, lexemes] at hsome
    | stray d => simp [hpiece, lexemes] at hsome
    | blockComment chars closed =>
        rw [hpiece] at hplain
        exact hplain.elim
    | lexeme kind chars =>
        rw [hpiece] at hinside
        have hchars : chars = c :: inside := hinside
        subst hchars
        have hlines : onOwnLines ((Piece.lexeme kind (c :: inside)).lexemes p) = c :: inside := by
          simp [onOwnLines, lexemes, Lexeme.ofChars]
        refine ⟨.lexeme kind (c :: inside), ?_, rfl, ?_⟩
        · rw [hlines]
          exact placed_eq_singleton (first_alone hpiece) rfl q
        · rintro ⟨chars, hopen⟩
          cases hopen
  · obtain ⟨inside, closed, hinside, hsqueezed, hopen⟩ := ofComment_squeezed more
    rw [hcomment, hinside]
    refine ⟨.blockComment ('/' :: '*' :: squeezed inside) closed, ?_, ?_, ?_⟩
    · rw [lexemes, onOwnLines_fragments_of_comment]
      exact placed_eq_singleton ((first_slash_star _).trans hsqueezed) rfl q
    · have hkept := filter_lines_squeezed ('/' :: '*' :: inside)
      rw [squeezed_cons_of_not_isBreak (by decide), squeezed_cons_of_not_isBreak (by decide)]
        at hkept
      rw [lexemes, lexemes, map_spelling_fragments, map_spelling_fragments, hkept]
    · rintro ⟨chars, hchars⟩
      cases hchars
      rw [hsource, text, hopen rfl]

theorem onOwnLines_append {lexemes more : List Lexeme} (hlexemes : lexemes ≠ [])
    (hmore : more ≠ []) :
    onOwnLines (lexemes ++ more) = onOwnLines lexemes ++ '\n' :: onOwnLines more := by
  have hmap : ∀ {lexemes : List Lexeme}, lexemes ≠ [] →
      lexemes.map (·.text.toList) ≠ [] := by
    intro lexemes hne
    simpa using hne
  rw [onOwnLines, List.map_append, intercalate_append (hmap hlexemes) (hmap hmore),
    List.append_assoc, List.singleton_append]
  rfl

theorem lexemesOf_nil : lexemesOf [] = [] :=
  rfl

theorem lexemesOf_cons (x : Position × Piece) (rest : List (Position × Piece)) :
    lexemesOf (x :: rest) = x.2.lexemes x.1 ++ lexemesOf rest :=
  rfl

/-- Lexemes laid out again are found again, one by one, wherever the text begins. -/
theorem map_spelling_placed_onOwnLines (p q : Position) (source : List Char) :
    (lexemesOf (placed q (onOwnLines (lexemesOf (placed p source))))).map spelling =
      (lexemesOf (placed p source)).map spelling := by
  fun_induction placed p source generalizing q with
  | case1 p =>
      rw [lexemesOf_nil, onOwnLines, List.map_nil, List.intercalate_nil, placed, lexemesOf_nil]
  | case2 p c rest piece remaining ih =>
      rw [lexemesOf_cons]
      dsimp only
      by_cases hnone : piece.lexemes p = []
      · rw [hnone, List.nil_append]
        exact ih q
      · obtain ⟨again, hplaced, hspelling, hopen⟩ := exists_placed_onOwnLines p q hnone
        by_cases hlater : lexemesOf (placed (p.after piece.text remaining.head?) remaining) = []
        · rw [hlater, List.append_nil, hplaced, lexemesOf_cons, lexemesOf_nil, List.append_nil]
          exact hspelling
        · have hclosed : ∀ x ∈ placed q (onOwnLines (piece.lexemes p)),
              ∀ chars, x.2 ≠ .blockComment chars false := by
            intro x hx chars hchars
            rw [hplaced, List.mem_singleton] at hx
            subst hx
            have htext : piece.text = c :: rest := hopen ⟨chars, hchars⟩
            have hremaining : remaining = [] := by simp [remaining, htext]
            rw [hremaining, placed] at hlater
            exact hlater rfl
          have hspace : ∀ r, (Piece.space '\n').lexemes r = [] := fun r => rfl
          rw [onOwnLines_append hnone hlater, placed_append_lf q hclosed, hplaced]
          simp only [lexemesOf_append, lexemesOf_cons, lexemesOf_nil, hspace, List.append_nil,
            List.nil_append, List.map_append, hspelling, ih]
          rfl

end Piece
end QasmHighlight
