import QasmHighlight.Proofs.Lexeme.Locality
import QasmHighlight.Proofs.Lexeme.PlainPiece

/-!
# Line endings have no bearing on the scan

A text keeps its lines when every line break in it is written as an LF.  The
scan keeps its lexemes and diagnostics too, at the same positions: a first piece
that is no block comment depends on the content of its line, and a block comment
ends in the same line and has the same lines after the change.
-/

namespace QasmHighlight

open Text

namespace Text

/-- The text with every line break written as an LF. -/
def withLf : List Char → List Char
  | [] => []
  | '\r' :: '\n' :: rest => '\n' :: withLf rest
  | '\r' :: rest => '\n' :: withLf rest
  | c :: rest => c :: withLf rest

theorem withLf_cons {c : Char} (hc : c ≠ '\r') (rest : List Char) :
    withLf (c :: rest) = c :: withLf rest := by
  rw [withLf]
  · rintro more rfl
    exact fun _ => hc rfl
  · exact hc

theorem withLf_eq_self {text : List Char} (htext : '\r' ∉ text) : withLf text = text := by
  induction text with
  | nil => rfl
  | cons c rest ih =>
      have hc : c ≠ '\r' := fun h => htext (h ▸ List.mem_cons_self)
      have hrest : '\r' ∉ rest := fun h => htext (List.mem_cons_of_mem c h)
      rw [withLf_cons hc, ih hrest]

theorem withLf_append {text rest : List Char} (hwhole : ¬ SplitsCrlf text rest.head?) :
    withLf (text ++ rest) = withLf text ++ withLf rest := by
  have htail : ∀ before more, ¬ SplitsCrlf (before ++ more) rest.head? →
      ¬ SplitsCrlf more rest.head? := fun before more h hsplits => h (hsplits.append_left before)
  fun_induction withLf text with
  | case1 => rfl
  | case2 more ih =>
      rw [List.cons_append, List.cons_append, withLf, ih (htail ['\r', '\n'] more hwhole),
        List.cons_append]
  | case3 more hcrlf ih =>
      have hnext : ∀ later, more ++ rest ≠ '\n' :: later := by
        intro later heq
        cases more with
        | nil =>
            rw [List.nil_append] at heq
            exact hwhole ⟨rfl, by rw [heq]; rfl⟩
        | cons d after =>
            cases heq
            exact hcrlf after rfl
      rw [List.cons_append, withLf, ih (htail ['\r'] more hwhole), List.cons_append]
      exact hnext
  | case4 c more _ hc ih =>
      rw [List.cons_append, withLf_cons hc, ih (htail [c] more hwhole), List.cons_append]

theorem withLf_append_of_cr_notMem {text : List Char} (htext : '\r' ∉ text)
    (rest : List Char) : withLf (text ++ rest) = text ++ withLf rest := by
  have hwhole : ¬ SplitsCrlf text rest.head? := fun hsplits =>
    htext (List.mem_of_getLast? hsplits.1)
  rw [withLf_append hwhole, withLf_eq_self htext]

theorem withLf_of_read? {text rest : List Char} {b : LineBreak}
    (hread : LineBreak.read? text = some (b, rest)) : withLf text = '\n' :: withLf rest := by
  unfold LineBreak.read? at hread
  split at hread
  · cases hread
    rw [withLf]
  · next hcrlf =>
    cases hread
    rw [withLf]
    exact hcrlf
  · cases hread
    rw [withLf_cons (by decide)]
  · cases hread

theorem bytes_withLf_le (text : List Char) : bytes (withLf text) ≤ bytes text := by
  have hsize : '\n'.utf8Size = '\r'.utf8Size := rfl
  fun_induction withLf text with
  | case1 => exact Nat.le_refl _
  | case2 rest ih =>
      simp only [bytes_cons]
      omega
  | case3 rest hcrlf ih =>
      simp only [bytes_cons]
      omega
  | case4 c rest hcrlf hcr ih =>
      simp only [bytes_cons]
      omega

private theorem cr_notMem_of_not_isBreak {text : List Char}
    (htext : ∀ c ∈ text, isBreak c = false) : '\r' ∉ text := by
  intro hcr
  exact (isBreak_eq_false_iff.1 (htext '\r' hcr)).2 rfl

private theorem withLf_eq_append (text : List Char) :
    withLf text = lineContent text ++ withLf (afterContent text) := by
  have hcontent := cr_notMem_of_not_isBreak (lineContent_not_isBreak text)
  rw [← withLf_append_of_cr_notMem hcontent, lineContent_append_afterContent]

theorem lineContent_withLf (text : List Char) : lineContent (withLf text) = lineContent text := by
  rw [withLf_eq_append, lineContent_append_of_not_isBreak (lineContent_not_isBreak text)]
  cases hread : LineBreak.read? (afterContent text) with
  | none =>
      rw [afterContent_eq_nil_of_read?_eq_none hread]
      simp [withLf, lineContent]
  | some found =>
      obtain ⟨b, rest⟩ := found
      rw [withLf_of_read? hread, lineContent_cons_of_isBreak (by decide), List.append_nil]

theorem read?_afterContent_withLf (text : List Char) :
    LineBreak.read? (afterContent (withLf text)) =
      (LineBreak.read? (afterContent text)).map fun found => (.lf, withLf found.2) := by
  rw [withLf_eq_append, afterContent_append_of_not_isBreak (lineContent_not_isBreak text)]
  cases hread : LineBreak.read? (afterContent text) with
  | none =>
      rw [afterContent_eq_nil_of_read?_eq_none hread]
      rfl
  | some found =>
      obtain ⟨b, rest⟩ := found
      rw [withLf_of_read? hread]
      rfl

theorem linesInto_withLf (done : Array (List Char)) (text : List Char) :
    linesInto done (withLf text) = linesInto done text := by
  fun_induction linesInto done text with
  | case1 done text hread =>
      have hread' : LineBreak.read? (afterContent (withLf text)) = none := by
        rw [read?_afterContent_withLf, hread]
        rfl
      rw [linesInto_of_read?_eq_none hread', lineContent_withLf]
  | case2 done text b rest hread ih =>
      have hread' : LineBreak.read? (afterContent (withLf text)) = some (.lf, withLf rest) := by
        rw [read?_afterContent_withLf, hread]
        rfl
      rw [linesInto_of_read?_eq_some hread', lineContent_withLf, ih]

theorem head?_withLf_eq_some_iff {c : Char} (hc : isBreak c = false) {text : List Char} :
    (withLf text).head? = some c ↔ text.head? = some c := by
  rw [← head?_lineContent_eq_some_iff hc, lineContent_withLf, head?_lineContent_eq_some_iff hc]

/-! ## Positions -/

theorem Position.after_read?
    (p : Position) {text rest : List Char} {b : LineBreak} {next : Option Char}
    (hread : LineBreak.read? text = some (b, rest)) (hwhole : ¬ SplitsCrlf text next) :
    p.after text next = (⟨p.line + 1, 0⟩ : Position).after rest next := by
  rw [← Position.after_lineBreak p hread hwhole, ← Position.after_append,
    ← LineBreak.eq_of_read? hread]

private theorem not_splitsCrlf_of_read? {text rest : List Char} {b : LineBreak} {next : Option Char}
    (hread : LineBreak.read? text = some (b, rest)) (hwhole : ¬ SplitsCrlf text next) :
    ¬ SplitsCrlf rest next := by
  intro hsplits
  rw [LineBreak.eq_of_read? hread] at hwhole
  exact hwhole (hsplits.append_left b.chars)

/-- A text whose breaks are written as LF leads to the same position, whatever
follows it. -/
theorem Position.after_withLf
    (p : Position) {text : List Char} {next : Option Char} (hwhole : ¬ SplitsCrlf text next)
    (next' : Option Char) : p.after (withLf text) next' = p.after text next := by
  fun_induction withLf text generalizing p with
  | case1 => rfl
  | case2 rest ih =>
      have hread : LineBreak.read? ('\r' :: '\n' :: rest) = some (.crlf, rest) := rfl
      rw [Position.after_read? p hread hwhole, Position.after_cons]
      simp only [Position.step, true_or, if_true]
      exact ih _ (not_splitsCrlf_of_read? hread hwhole)
  | case3 rest hcrlf ih =>
      have hread : LineBreak.read? ('\r' :: rest) = some (.cr, rest) := by
        rw [LineBreak.read?]
        exact hcrlf
      rw [Position.after_read? p hread hwhole, Position.after_cons]
      simp only [Position.step, true_or, if_true]
      exact ih _ (not_splitsCrlf_of_read? hread hwhole)
  | case4 c rest hcrlf hcr ih =>
      have hc : c ≠ '\r' := hcr
      have hrest : ¬ SplitsCrlf rest next := by
        intro hsplits
        exact hwhole (hsplits.append_left [c])
      rw [Position.after_cons, Position.after_cons]
      simp only [Position.step, hc, false_and, or_false]
      exact ih _ hrest

end Text

/-! ## Block comments -/

namespace Lexeme

theorem commentEnd?_cons_of_isBreak {c : Char} (hc : isBreak c = true) (before : Nat)
    (rest : List Char) : commentEnd? before (c :: rest) = commentEnd? (before + 1) rest := by
  have hstar : c ≠ '*' := by
    rintro rfl
    exact absurd hc (by decide)
  simp [commentEnd?, hstar]

theorem commentEnd?_withLf_of_eq_none {before : Nat} {text : List Char}
    (hopen : commentEnd? before text = none) (before' : Nat) :
    commentEnd? before' (withLf text) = none := by
  have hcr : isBreak '\r' = true := by decide
  have hlf : isBreak '\n' = true := by decide
  fun_induction withLf text generalizing before before' with
  | case1 => rfl
  | case2 rest ih =>
      rw [commentEnd?_cons_of_isBreak hcr, commentEnd?_cons_of_isBreak hlf] at hopen
      rw [commentEnd?_cons_of_isBreak hlf]
      exact ih hopen _
  | case3 rest _ ih =>
      rw [commentEnd?_cons_of_isBreak hcr] at hopen
      rw [commentEnd?_cons_of_isBreak hlf]
      exact ih hopen _
  | case4 c rest _ _ ih =>
      have hslash : (withLf rest).head? = some '/' ↔ rest.head? = some '/' :=
        head?_withLf_eq_some_iff (by decide)
      rw [commentEnd?] at hopen ⊢
      simp only [hslash]
      split at hopen
      · cases hopen
      · next hnot =>
        rw [if_neg hnot]
        exact ih hopen _

/-- The same `*/` closes a comment whose breaks are written as LF. -/
theorem commentEnd?_withLf_of_eq_some {before count : Nat} {text : List Char}
    (hfound : commentEnd? before text = some count) (before' : Nat) :
    ∃ inside after, text = inside ++ '*' :: '/' :: after ∧ count = before + inside.length ∧
      commentEnd? before' (withLf text) = some (before' + (withLf inside).length) := by
  have hcr : isBreak '\r' = true := by decide
  have hlf : isBreak '\n' = true := by decide
  fun_induction withLf text generalizing before before' with
  | case1 => cases hfound
  | case2 rest ih =>
      rw [commentEnd?_cons_of_isBreak hcr, commentEnd?_cons_of_isBreak hlf] at hfound
      obtain ⟨inside, after, rfl, rfl, hend⟩ := ih hfound (before' + 1)
      refine ⟨'\r' :: '\n' :: inside, after, rfl, ?_, ?_⟩
      · simp only [List.length_cons]
        omega
      · rw [commentEnd?_cons_of_isBreak hlf, hend, withLf, List.length_cons]
        congr 1
        omega
  | case3 rest hcrlf ih =>
      rw [commentEnd?_cons_of_isBreak hcr] at hfound
      obtain ⟨inside, after, rfl, rfl, hend⟩ := ih hfound (before' + 1)
      have hinside : withLf ('\r' :: inside) = '\n' :: withLf inside := by
        rw [withLf]
        rintro more rfl
        exact hcrlf _ rfl
      refine ⟨'\r' :: inside, after, rfl, ?_, ?_⟩
      · simp only [List.length_cons]
        omega
      · rw [commentEnd?_cons_of_isBreak hlf, hend, hinside, List.length_cons]
        congr 1
        omega
  | case4 c rest _ hc ih =>
      have hslash : (withLf rest).head? = some '/' ↔ rest.head? = some '/' :=
        head?_withLf_eq_some_iff (by decide)
      rw [commentEnd?] at hfound
      simp only [commentEnd?, hslash]
      split at hfound
      · next hend =>
        cases hfound
        obtain ⟨rfl, hhead⟩ := hend
        obtain ⟨after, rfl⟩ := List.head?_eq_some_iff.1 hhead
        exact ⟨[], after, rfl, rfl, by simp [withLf]⟩
      · next hnot =>
        obtain ⟨inside, after, rfl, rfl, hend⟩ := ih hfound (before' + 1)
        refine ⟨c :: inside, after, rfl, ?_, ?_⟩
        · simp only [List.length_cons]
          omega
        · rw [if_neg hnot, hend, withLf_cons hc, List.length_cons]
          congr 1
          omega

end Lexeme

namespace Piece

open Lexeme

/-- A block comment ends at the same place, and is closed or not, however its
breaks are written. -/
theorem ofComment_withLf (more : List Char) :
    ∃ chars closed remaining,
      '/' :: '*' :: more = chars ++ remaining ∧ ¬ SplitsCrlf chars remaining.head? ∧
      ofComment more = .blockComment chars closed ∧
      ofComment (withLf more) = .blockComment (withLf chars) closed := by
  have hopening : ∀ text, withLf ('/' :: '*' :: text) = '/' :: '*' :: withLf text := by
    intro text
    rw [withLf_cons (by decide), withLf_cons (by decide)]
  cases hend : commentEnd? 0 more with
  | none =>
      have hend' := commentEnd?_withLf_of_eq_none hend 0
      refine ⟨'/' :: '*' :: more, false, [], by simp, ?_, ?_, ?_⟩
      · rintro ⟨_, hlf⟩
        cases hlf
      · simp only [ofComment, hend]
      · simp only [ofComment, hend', hopening]
  | some count =>
      obtain ⟨inside, after, rfl, rfl, hend'⟩ := commentEnd?_withLf_of_eq_some hend 0
      have htake : ∀ text following : List Char,
          (text ++ '*' :: '/' :: following).take (0 + text.length + 2) = text ++ ['*', '/'] := by
        intro text following
        rw [Nat.zero_add, List.take_length_add_append]
        rfl
      have hwhole : ∀ following : List Char,
          withLf (inside ++ '*' :: '/' :: following) =
            withLf inside ++ '*' :: '/' :: withLf following := by
        intro following
        have hsplits : ¬ SplitsCrlf inside ('*' :: '/' :: following).head? := by
          rintro ⟨_, hlf⟩
          cases hlf
        rw [withLf_append hsplits, withLf_cons (by decide), withLf_cons (by decide)]
      refine ⟨'/' :: '*' :: (inside ++ ['*', '/']), true, after, by simp, ?_, ?_, ?_⟩
      · rintro ⟨hcr, _⟩
        simp [List.getLast?_cons, List.getLast?_append] at hcr
      · simp only [ofComment, hend, htake]
      · rw [hwhole] at hend' ⊢
        simp only [ofComment, hend', htake, hopening, hwhole]
        rfl

/-! ## The scan -/

private theorem text_first_not_isBreak {c : Char} {rest : List Char} (hc : isBreak c = false)
    (hblock : ¬ (c = '/' ∧ rest.head? = some '*')) :
    ∀ d ∈ (first c rest).text, isBreak d = false := by
  have hhead := isPrefix_first c rest
  rcases isPlain_first_or_blockComment c rest with hplain | ⟨more, hsource, _⟩
  · cases hfirst : first c rest with
    | blockComment chars closed =>
        rw [hfirst] at hplain
        exact hplain.elim
    | lexeme kind chars =>
        rw [hfirst] at hplain
        exact hplain.2
    | space d =>
        rw [hfirst] at hhead
        obtain ⟨rfl, _⟩ := List.cons_prefix_cons.1 hhead
        simpa [text] using hc
    | stray d =>
        rw [hfirst] at hhead
        obtain ⟨rfl, _⟩ := List.cons_prefix_cons.1 hhead
        simpa [text] using hc
  · exfalso
    cases hsource
    exact hblock ⟨rfl, rfl⟩

section

variable {β : Type} {f : Position × Piece → List β}

theorem flatMap_placed_of_read?
    (hspace : ∀ p c, f (p, .space c) = [])
    (p : Position) {source rest : List Char} {b : LineBreak}
    (hread : LineBreak.read? source = some (b, rest)) :
    (placed p source).flatMap f = (placed ⟨p.line + 1, 0⟩ rest).flatMap f := by
  have hblanks : ∀ c ∈ b.chars, isBlank c = true := fun c hc =>
    isBlank_of_isBreak (b.isBreak_of_mem_chars hc)
  have hwhole : ¬ SplitsCrlf source none := by
    rintro ⟨_, hnone⟩
    cases hnone
  have hposition := p.after_lineBreak hread hwhole
  rw [Option.or_none] at hposition
  rw [LineBreak.eq_of_read? hread, flatMap_placed_append_of_isBlank hspace p hblanks, hposition]

/-- Whatever is read off pieces and their positions, but not off blank pieces,
does not depend on how line breaks are written, if it does not for block
comments. -/
theorem flatMap_placed_withLf
    (hspace : ∀ p c, f (p, .space c) = [])
    (hcomment : ∀ p chars closed,
      f (p, .blockComment (withLf chars) closed) = f (p, .blockComment chars closed))
    (p : Position) (source : List Char) :
    (placed p (withLf source)).flatMap f = (placed p source).flatMap f := by
  induction hlength : source.length using Nat.strong_induction_on generalizing p source with
  | _ length ih =>
      subst hlength
      cases hread : LineBreak.read? source with
      | some found =>
          obtain ⟨b, rest⟩ := found
          have hlf : LineBreak.read? ('\n' :: withLf rest) = some (.lf, withLf rest) := rfl
          rw [flatMap_placed_of_read? hspace p hread, withLf_of_read? hread,
            flatMap_placed_of_read? hspace p hlf]
          exact ih rest.length (LineBreak.length_lt_of_read? hread) _ rest rfl
      | none =>
          cases source with
          | nil => rfl
          | cons c rest =>
              have hc := LineBreak.read?_eq_none_iff.1 hread c rfl
              have hcr : c ≠ '\r' := (isBreak_eq_false_iff.1 hc).2
              rw [withLf_cons hcr]
              by_cases hblock : c = '/' ∧ rest.head? = some '*'
              · obtain ⟨rfl, hstar⟩ := hblock
                obtain ⟨more, rfl⟩ := List.head?_eq_some_iff.1 hstar
                obtain ⟨chars, closed, remaining, hsource, hwhole, hfirst, hfirst'⟩ :=
                  ofComment_withLf more
                rw [← first_slash_star] at hfirst hfirst'
                have hsource' := congrArg withLf hsource
                rw [withLf_append hwhole, withLf_cons (by decide), withLf_cons (by decide)]
                  at hsource'
                have hremaining := ih remaining.length (length_lt_of_first hfirst hsource)
                  (p.after chars remaining.head?) remaining rfl
                rw [withLf_cons (by decide), placed_cons p hfirst hsource,
                  placed_cons p hfirst' hsource']
                simp only [List.flatMap_cons, text, hcomment,
                  Position.after_withLf p hwhole, hremaining]
              · have hline := lineContent_withLf rest
                have hfirst' := first_eq_of_lineContent_eq hline.symm hblock
                have htext := text_first_not_isBreak hc hblock
                have hsource := (text_first_append_drop c rest).symm
                generalize (c :: rest).drop (first c rest).text.length = remaining at hsource
                have hsource' := congrArg withLf hsource
                rw [withLf_append_of_cr_notMem (cr_notMem_of_not_isBreak htext), withLf_cons hcr]
                  at hsource'
                have hremaining := ih remaining.length (length_lt_of_first rfl hsource)
                  (p.after (first c rest).text remaining.head?) remaining rfl
                rw [placed_cons p rfl hsource, placed_cons p hfirst'.symm hsource',
                  List.flatMap_cons, List.flatMap_cons, ← hremaining,
                  Position.after_of_forall_not_isBreak p htext,
                  Position.after_of_forall_not_isBreak p htext]

end

theorem fragments_withLf (p : Position) (chars : List Char) :
    fragments p (withLf chars) = fragments p chars := by
  unfold fragments lines
  rw [linesInto_withLf]

end Piece

theorem scan_withLf (source : List Char) : scan (withLf source) = scan source := by
  have hlexemes := Piece.flatMap_placed_withLf (f := fun x => x.2.lexemes x.1)
    (fun _ _ => rfl) (fun p chars _ => Piece.fragments_withLf p chars) .start source
  have hdiagnostics := Piece.flatMap_placed_withLf (f := fun x => x.2.diagnostics x.1)
    (fun _ _ => rfl) (fun _ _ closed => by cases closed <;> rfl) .start source
  unfold scan Scan.ofPlaced
  rw [hlexemes, hdiagnostics]

end QasmHighlight
