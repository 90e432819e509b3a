import QasmHighlight.Proofs.Lexeme.Overwriting
import QasmHighlight.Proofs.Lexeme.Stop

/-!
# Words, hardware qubits and symbols of full length

Scanning takes the characters of a word or of a hardware qubit as long as they
go on, so the character after them is not one of theirs.  Operators are tried in
a fixed order; it never puts a longer one behind a shorter one, so the first that
fits is the longest that fits.  What begins a comment or a number is tried before
the operators and the marks, so no operator is cut out of a comment delimiter and
no dot out of a number.
-/

namespace QasmHighlight

open Text

namespace Lexeme

/-- A name, with or without the `#` of a directive before it. -/
inductive IsWord : List Char → Prop
  | name {c : Char} {more : List Char} : startsName c = true →
      (∀ d ∈ more, continuesName d = true) → IsWord (c :: more)
  | directive {c : Char} {more : List Char} : startsName c = true →
      (∀ d ∈ more, continuesName d = true) → IsWord ('#' :: c :: more)

inductive IsHardwareQubit : List Char → Prop
  | mk {d : Char} {more : List Char} : d.isDigit = true →
      (∀ c ∈ more, c.isDigit = true) → IsHardwareQubit ('$' :: d :: more)

/-- What follows does not go on with characters of a class. -/
def RunEnds (accept : Char → Bool) (following : List Char) : Prop :=
  ∀ c, following.head? = some c → accept c = false

/-- An operator with which a text begins, when no longer one does and no comment
begins there. -/
structure IsLongestOperator (op text : List Char) : Prop where
  mem : op ∈ operators
  leads : op <+: text
  longest : ∀ other ∈ operators, other <+: text → other.length ≤ op.length
  no_line_comment : ¬ ['/', '/'] <+: text
  no_block_comment : ¬ ['/', '*'] <+: text

/-! ## Runs of characters -/

private theorem runEnds_of_append_takeWhile {accept : Char → Bool} {text following : List Char}
    (htext : text = text.takeWhile accept ++ following) : RunEnds accept following := by
  have hparts : text.takeWhile accept ++ text.dropWhile accept = text :=
    List.takeWhile_append_dropWhile
  have hfollowing : following = text.dropWhile accept :=
    List.append_cancel_left (htext.symm.trans hparts.symm)
  intro c hc
  rw [hfollowing] at hc
  exact not_accepted_of_head?_dropWhile hc

private theorem exists_takeWhile_eq_cons {accept begins : Char → Bool} {text : List Char}
    (hhead : text.head?.any begins = true)
    (haccept : ∀ c, begins c = true → accept c = true) :
    ∃ c more, text.takeWhile accept = c :: more ∧ begins c = true ∧
      ∀ d ∈ more, accept d = true := by
  cases text with
  | nil => cases hhead
  | cons c rest =>
      have hc : begins c = true := hhead
      refine ⟨c, rest.takeWhile accept, ?_, hc, fun d hd => List.mem_takeWhile_imp hd⟩
      exact List.takeWhile_cons_of_pos (haccept c hc)

/-! ## Operators -/

private theorem operators_longer_first : operators.Pairwise fun a b => b.length ≤ a.length := by
  decide

theorem length_le_of_leadingOperator? {text op other : List Char}
    (hfound : leadingOperator? text = some op) (hother : other ∈ operators)
    (hleads : other <+: text) : other.length ≤ op.length := by
  obtain ⟨_, tried, untried, hsplit, hfailed⟩ := List.find?_eq_some_iff_append.1 hfound
  have horder := operators_longer_first
  rw [hsplit] at hother horder
  rcases List.mem_append.1 hother with htried | hlater
  · have hnot := hfailed other htried
    rw [List.isPrefixOf_iff_prefix.2 hleads] at hnot
    cases hnot
  · rcases List.mem_cons.1 hlater with rfl | huntried
    · exact Nat.le_refl _
    · have hrest := (List.pairwise_append.1 horder).2.1
      exact (List.pairwise_cons.1 hrest).1 other huntried

end Lexeme

/-! ## The piece at the front of a text -/

namespace Piece

open Lexeme

variable {c : Char} {rest text following : List Char}

theorem isWord_of_first (hfirst : first c rest = .lexeme .word text)
    (hsource : text ++ following = c :: rest) :
    IsWord text ∧ RunEnds continuesName following := by
  cases reads_of_first_eq hfirst with
  | word hbegins =>
      rw [List.cons_append, List.cons.injEq] at hsource
      refine ⟨?_, runEnds_of_append_takeWhile hsource.2.symm⟩
      rcases hbegins with ⟨rfl, hhead⟩ | hc
      · obtain ⟨d, more, hrun, hd, hmore⟩ :=
          exists_takeWhile_eq_cons hhead fun _ => continuesName_of_startsName
        rw [hrun]
        exact .directive hd hmore
      · exact .name hc fun d hd => List.mem_takeWhile_imp hd

theorem isHardwareQubit_of_first (hfirst : first c rest = .lexeme .hardwareQubit text)
    (hsource : text ++ following = c :: rest) :
    IsHardwareQubit text ∧ RunEnds Char.isDigit following := by
  cases reads_of_first_eq hfirst with
  | hardwareQubit hdollar hhead =>
      subst hdollar
      rw [List.cons_append, List.cons.injEq] at hsource
      refine ⟨?_, runEnds_of_append_takeWhile hsource.2.symm⟩
      obtain ⟨d, more, hrun, hd, hmore⟩ := exists_takeWhile_eq_cons hhead fun _ hd => hd
      rw [hrun]
      exact .mk hd hmore

theorem isLongestOperator_of_first (hfirst : first c rest = .lexeme .operator text) :
    IsLongestOperator text (c :: rest) := by
  cases reads_of_first_eq hfirst with
  | operator hline hblock hfound =>
      have hleads := List.find?_some hfound
      refine ⟨List.mem_of_find?_eq_some hfound, List.isPrefixOf_iff_prefix.1 hleads, ?_, ?_, ?_⟩
      · intro other hother hleads
        exact length_le_of_leadingOperator? hfound hother hleads
      · rintro ⟨after, hopen⟩
        cases hopen
        exact hline ⟨rfl, rfl⟩
      · rintro ⟨after, hopen⟩
        cases hopen
        exact hblock ⟨rfl, rfl⟩

theorem dot_of_first (hfirst : first c rest = .lexeme (.punctuation .dot) text)
    (hsource : text ++ following = c :: rest) :
    text = ['.'] ∧ RunEnds Char.isDigit following := by
  cases reads_of_first_eq hfirst with
  | punctuation hnumeral _ hmark =>
      have hdot : c = '.' := by
        unfold Punctuation.ofChar? at hmark
        split at hmark <;> cases hmark
        rfl
      subst hdot
      cases hsource
      refine ⟨rfl, ?_⟩
      intro d hd
      simpa [Numeral.begins, hd] using hnumeral

end Piece

/-! ## The lexemes of a scan -/

theorem positionAt_injOn {source : List Char} {i j : Nat} (hi : i ≤ source.length)
    (hj : j ≤ source.length) (hsame : positionAt source i = positionAt source j) : i = j := by
  by_contra hne
  rcases Nat.lt_or_gt_of_ne hne with hlt | hlt
  · have hbefore := positionAt_endsBefore source hlt hj
    rw [hsame] at hbefore
    unfold Position.EndsBefore at hbefore
    omega
  · have hbefore := positionAt_endsBefore source hlt hi
    rw [hsame] at hbefore
    unfold Position.EndsBefore at hbefore
    omega

/-- A lexeme that is no comment is the first piece of the text from its cut on. -/
theorem Cut.Holds.first_eq {source : List Char} {lexeme : Lexeme} {cut : Cut source}
    (hholds : cut.Holds lexeme.text lexeme.position lexeme.length)
    (hlexeme : lexeme ∈ (scan source).lexemes) {kind : LexemeKind}
    (hkind : lexeme.kind = kind) (hcomment : kind ≠ .comment) :
    ∃ c rest, cut.text ++ cut.after = c :: rest ∧
      Piece.first c rest = .lexeme kind cut.text := by
  subst hkind
  obtain ⟨stop, c, rest, chars, hrest, hfirst, hparts⟩ :=
    Stop.exists_of_mem_lexemes hlexeme hcomment
  have hposition : positionAt source cut.before.length =
      positionAt source stop.before.length := by
    rw [← hholds.position_eq, hparts]
    rfl
  have hwhole : cut.before ++ (cut.text ++ cut.after) = stop.before ++ (c :: rest) := by
    rw [← List.append_assoc, cut.whole, ← hrest, stop.before_append_rest]
  have hlength : cut.before.length = stop.before.length := by
    apply positionAt_injOn ?_ ?_ hposition
    · conv_rhs => rw [← cut.whole]
      simp
    · conv_rhs => rw [← stop.before_append_rest]
      simp
  have htext : cut.text = chars := by
    have hcontent := hholds.toList_content
    rw [hparts] at hcontent
    simpa [Lexeme.ofChars] using hcontent.symm
  obtain ⟨_, hfrom⟩ := List.append_inj hwhole hlength
  exact ⟨c, rest, hfrom, htext ▸ hfirst⟩

open Lexeme

/-- From its place in the source on, a word or a hardware qubit goes on as long as
its characters do, an operator is the longest one there, and a dot does not stand
before a digit. -/
theorem longest_match_at_cut {source : List Char} {k : Nat} {lexeme : Lexeme}
    (hlexeme : (scan source).lexemes[k]? = some lexeme) :
    ∃ cut, (cuts source)[k]? = some cut ∧
      cut.Holds lexeme.text lexeme.position lexeme.length ∧
      (lexeme.kind = .word → IsWord cut.text ∧ RunEnds continuesName cut.after) ∧
      (lexeme.kind = .hardwareQubit →
        IsHardwareQubit cut.text ∧ RunEnds Char.isDigit cut.after) ∧
      (lexeme.kind = .operator → IsLongestOperator cut.text (cut.text ++ cut.after)) ∧
      (lexeme.kind = .punctuation .dot →
        cut.text = ['.'] ∧ RunEnds Char.isDigit cut.after) := by
  obtain ⟨cut, hcut, hholds⟩ := exists_getElem?_of_forall₂ (forall₂_cuts source) hlexeme
  have hmem := List.mem_of_getElem? hlexeme
  refine ⟨cut, hcut, hholds, ?_, ?_, ?_, ?_⟩
  · intro hkind
    obtain ⟨c, rest, hsource, hfirst⟩ := hholds.first_eq hmem hkind (by decide)
    exact Piece.isWord_of_first hfirst hsource
  · intro hkind
    obtain ⟨c, rest, hsource, hfirst⟩ := hholds.first_eq hmem hkind (by decide)
    exact Piece.isHardwareQubit_of_first hfirst hsource
  · intro hkind
    obtain ⟨c, rest, hsource, hfirst⟩ := hholds.first_eq hmem hkind (by decide)
    rw [hsource]
    exact Piece.isLongestOperator_of_first hfirst
  · intro hkind
    obtain ⟨c, rest, hsource, hfirst⟩ := hholds.first_eq hmem hkind (by decide)
    exact Piece.dot_of_first hfirst hsource

/-- Three operators begin with the first star, and a dot before `.5` stays alone. -/
theorem longest_match_at_cut_power_assignment :
    (scan "a**=..5".toList).lexemes[1]? = some ⟨.operator, "**=", ⟨1, 1⟩, 3⟩ ∧
    (scan "a**=..5".toList).lexemes[2]? = some ⟨.punctuation .dot, ".", ⟨1, 4⟩, 1⟩ ∧
    (∃ cut : Cut "a**=..5".toList, (cuts _)[1]? = some cut ∧ cut.Holds "**=" ⟨1, 1⟩ 3 ∧
      IsLongestOperator cut.text (cut.text ++ cut.after)) ∧
    ∃ cut : Cut "a**=..5".toList, (cuts _)[2]? = some cut ∧ cut.Holds "." ⟨1, 4⟩ 1 ∧
      cut.text = ['.'] ∧ RunEnds Char.isDigit cut.after := by
  have hpower : (scan "a**=..5".toList).lexemes[1]? =
      some ⟨.operator, "**=", ⟨1, 1⟩, 3⟩ := by
    decide +kernel
  have hdot : (scan "a**=..5".toList).lexemes[2]? =
      some ⟨.punctuation .dot, ".", ⟨1, 4⟩, 1⟩ := by
    decide +kernel
  obtain ⟨cut, hcut, hholds, _, _, hoperator, _⟩ := longest_match_at_cut hpower
  obtain ⟨cut', hcut', hholds', _, _, _, hmark⟩ := longest_match_at_cut hdot
  exact ⟨hpower, hdot, ⟨cut, hcut, hholds, hoperator rfl⟩, cut', hcut', hholds', hmark rfl⟩

end QasmHighlight
