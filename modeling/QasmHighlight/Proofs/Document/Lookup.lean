import QasmHighlight.Document.Change
import QasmHighlight.Proofs.Token.Placement

/-!
# Points of a document and positions of its tokens

An editor names places by zero-based lines and UTF-16 columns, and the document
finds them by walking over whole lines.  Reading from the start of the text one
character at a time reaches the same places: the point of a position that was
reached by reading is found where the reading stopped, as long as it did not
stop inside a CRLF.  A change to the range of a token therefore replaces the
token's content and nothing else.
-/

namespace QasmHighlight

open Text

def Text.Position.toPoint (p : Position) : Point :=
  ⟨p.line - 1, p.column⟩

def Token.range (token : Token) : Range :=
  ⟨⟨token.position.line - 1, token.position.column⟩,
    ⟨token.position.line - 1, token.position.column + token.length⟩⟩

private theorem fitting_units_append (count : Nat) (text rest : List Char) :
    fitting count (units text) (text ++ rest) = count + text.length := by
  induction text generalizing count with
  | nil =>
      cases rest with
      | nil => rfl
      | cons c more =>
          have hwidth := width_pos c
          have hlarge : ¬ width c ≤ 0 := by omega
          simp [fitting, hlarge]
  | cons c more ih =>
      have hfits : width c ≤ width c + units more := Nat.le_add_right _ _
      rw [units_cons, List.cons_append, fitting, if_pos hfits, Nat.add_sub_cancel_left, ih,
        List.length_cons]
      omega

/-- A point below the first line of a text lies in what follows the first
break. -/
theorem offsetFrom_succ_of_read?
    {content text rest : List Char} {b : LineBreak}
    (hcontent : ∀ c ∈ content, isBreak c = false)
    (hread : LineBreak.read? text = some (b, rest)) (count below column : Nat) :
    Point.offsetFrom count (below + 1) column (content ++ text) =
      Point.offsetFrom (count + content.length + b.chars.length) below column rest := by
  have hline : lineContent (content ++ text) = content := by
    rw [lineContent_append_of_not_isBreak hcontent, lineContent_eq_nil_of_read? hread,
      List.append_nil]
  have hafter : LineBreak.read? (afterContent (content ++ text)) = some (b, rest) := by
    rw [afterContent_append_of_not_isBreak hcontent, afterContent_eq_self_of_read? hread, hread]
  rw [Point.offsetFrom, hafter]
  dsimp only
  rw [hline]

/-- Walking over lines from the start of one of them reaches the place that
reading character by character reaches. -/
theorem offsetFrom_after
    (count line : Nat) (before rest : List Char) (hwhole : ¬ SplitsCrlf before rest.head?) :
    Point.offsetFrom count
        (((⟨line, 0⟩ : Position).after before rest.head?).line - line)
        ((⟨line, 0⟩ : Position).after before rest.head?).column (before ++ rest) =
      count + before.length := by
  induction hlength : before.length using Nat.strong_induction_on
    generalizing count line before with
  | _ length ih =>
      subst hlength
      cases hread : LineBreak.read? (afterContent before) with
      | none =>
          have hplain := lineContent_not_isBreak before
          rw [lineContent_eq_self_of_read?_eq_none hread] at hplain
          rw [Position.after_of_forall_not_isBreak _ hplain]
          simp only [Nat.sub_self, Nat.zero_add, Point.offsetFrom]
          rw [lineContent_append_of_not_isBreak hplain, fitting_units_append]
      | some found =>
          obtain ⟨b, more⟩ := found
          obtain ⟨hafter, hmore⟩ := not_splitsCrlf_of_read?_afterContent hread hwhole
          have hbefore := eq_append_of_read?_afterContent hread
          have hposition : (⟨line, 0⟩ : Position).after before rest.head? =
              (⟨line + 1, 0⟩ : Position).after more rest.head? := by
            rw [← hbefore, Position.after_append,
              Position.after_firstLine _ hread hwhole]
          have hlater : line + 1 ≤ ((⟨line + 1, 0⟩ : Position).after more rest.head?).line := by
            rcases Position.le_after ⟨line + 1, 0⟩ more rest.head? with hlt | ⟨heq, _⟩
            · exact Nat.le_of_lt hlt
            · exact Nat.le_of_eq heq
          have hdown : ((⟨line + 1, 0⟩ : Position).after more rest.head?).line - line =
              ((⟨line + 1, 0⟩ : Position).after more rest.head?).line - (line + 1) + 1 := by
            omega
          have hsource : before ++ rest =
              lineContent before ++ (afterContent before ++ rest) := by
            rw [← List.append_assoc, lineContent_append_afterContent]
          have hbreaks := LineBreak.read?_append hread hafter
          have hcount : before.length =
              (lineContent before).length + b.chars.length + more.length := by
            have hparts := congrArg List.length hbefore
            simpa [Nat.add_assoc] using hparts.symm
          have hbreak : 0 < b.chars.length := by
            cases b <;> decide
          have hrest := ih more.length (by omega)
            (count + (lineContent before).length + b.chars.length) (line + 1) more hmore rfl
          rw [hposition, hdown, hsource,
            offsetFrom_succ_of_read? (lineContent_not_isBreak before) hbreaks, hrest, hcount]
          omega

theorem offset_toPoint_after
    (before rest : List Char) (hwhole : ¬ SplitsCrlf before rest.head?) :
    (Position.start.after before rest.head?).toPoint.offset (before ++ rest) =
      before.length := by
  have hwalk := offsetFrom_after 0 1 before rest hwhole
  rw [Nat.zero_add] at hwalk
  exact hwalk

/-! ## Changes to the range of a token -/

namespace Cut

variable {source : List Char}

theorem Holds.offset_start {cut : Cut source} {content : String} {position : Position}
    {length : Nat} (hholds : cut.Holds content position length) :
    position.toPoint.offset source = cut.before.length := by
  have hwhole : ¬ SplitsCrlf cut.before (cut.text ++ cut.after).head? := by
    obtain ⟨c, more, htext⟩ := List.exists_cons_of_ne_nil hholds.text_ne_nil
    have hc : isBreak c = false := by
      apply hholds.text_not_isBreak
      rw [htext]
      exact List.mem_cons_self
    rintro ⟨_, hlf⟩
    rw [htext, List.cons_append, List.head?_cons, Option.some.injEq] at hlf
    exact (isBreak_eq_false_iff.1 hc).1 hlf
  have hfound := offset_toPoint_after cut.before (cut.text ++ cut.after) hwhole
  rw [List.head?_append, ← hholds.position_eq_after, ← List.append_assoc, cut.whole] at hfound
  exact hfound

theorem Holds.offset_stop {cut : Cut source} {content : String} {position : Position}
    {length : Nat} (hholds : cut.Holds content position length) :
    (⟨position.line - 1, position.column + length⟩ : Point).offset source =
      cut.before.length + cut.text.length := by
  have hwhole : ¬ SplitsCrlf (cut.before ++ cut.text) cut.after.head? := by
    rintro ⟨hcr, _⟩
    rw [List.getLast?_append_of_ne_nil _ hholds.text_ne_nil] at hcr
    have hbreak := hholds.text_not_isBreak '\r' (List.mem_of_getLast? hcr)
    exact (isBreak_eq_false_iff.1 hbreak).2 rfl
  have hfound := offset_toPoint_after (cut.before ++ cut.text) cut.after hwhole
  rw [hholds.after_text, cut.whole, List.length_append] at hfound
  exact hfound

theorem Holds.apply_change {cut : Cut source} {token : Token}
    (hholds : cut.Holds token.content token.position token.length) (replacement : String) :
    (Change.mk (some token.range) replacement).apply source =
      cut.before ++ replacement.toList ++ cut.after := by
  have hstart : token.range.start.offset source = cut.before.length := hholds.offset_start
  have hstop : token.range.stop.offset source = cut.before.length + cut.text.length :=
    hholds.offset_stop
  have hbounds : token.range.bounds source =
      (cut.before.length, cut.before.length + cut.text.length) := by
    unfold Range.bounds
    dsimp only
    rw [hstart, hstop, Nat.max_eq_right (Nat.le_add_right _ _)]
  unfold Change.apply
  dsimp only
  rw [hbounds, cut.take_length_before, cut.drop_length_text]

end Cut

private theorem applyChanges_singleton_range (text : String) (range : Range)
    (replacement : String) :
    applyChanges text [⟨some range, replacement⟩] =
      String.ofList ((Change.mk (some range) replacement).apply text.toList) := rfl

/-- A change to the range of the token numbered `k` puts the replacement in
place of what the scan cut out for it and leaves all else as it is; putting the
content itself there changes nothing. -/
theorem applyChanges_token_range
    {limits : Limits} {source : String} {found : Tokenized}
    (haccepted : tokenize limits source = .ok found)
    {k : Nat} {token : Token} (htoken : found.tokens[k]? = some token) (replacement : String) :
    ∃ cut, (cuts source.toList)[k]? = some cut ∧
      slice cut.offset (cut.offset + bytes cut.text) source.toList = token.content.toList ∧
      applyChanges source [⟨some token.range, replacement⟩] =
        String.ofList (cut.before ++ replacement.toList ++ cut.after) ∧
      cut.before ++ token.content.toList ++ cut.after = source.toList ∧
      applyChanges source [⟨some token.range, token.content⟩] = source := by
  obtain ⟨cut, hcut, hholds⟩ := exists_cut_of_token haccepted htoken
  have hcontent := hholds.toList_content
  refine ⟨cut, hcut, ?_, ?_, ?_, ?_⟩
  · rw [cut.slice_offset, hcontent]
  · rw [applyChanges_singleton_range, hholds.apply_change]
  · rw [hcontent, cut.whole]
  · rw [applyChanges_singleton_range, hholds.apply_change, hcontent, cut.whole,
      String.ofList_toList]

/-- A word after a surrogate pair and a separator that ends no line. -/
theorem applyChanges_token_range_after_separator :
    ∃ found token cut,
      tokenize {} "\r\n𝜃\u2028π;" = .ok found ∧ found.tokens[1]? = some token ∧
      (cuts "\r\n𝜃\u2028π;".toList)[1]? = some cut ∧
      slice cut.offset (cut.offset + bytes cut.text) "\r\n𝜃\u2028π;".toList =
        token.content.toList ∧
      applyChanges "\r\n𝜃\u2028π;" [⟨some token.range, "tau"⟩] =
        String.ofList (cut.before ++ "tau".toList ++ cut.after) ∧
      cut.before ++ token.content.toList ++ cut.after = "\r\n𝜃\u2028π;".toList ∧
      applyChanges "\r\n𝜃\u2028π;" [⟨some token.range, token.content⟩] =
        "\r\n𝜃\u2028π;" := by
  have haccepted : tokenize {} "\r\n𝜃\u2028π;" = .ok
      ⟨[⟨.gate, "𝜃", ⟨2, 0⟩, 2⟩, ⟨.builtinConstant, "π", ⟨2, 3⟩, 1⟩,
        ⟨.punctuation, ";", ⟨2, 4⟩, 1⟩], []⟩ := by
    have hscan : scan "\r\n𝜃\u2028π;".toList =
        ⟨[⟨.word, "𝜃", ⟨2, 0⟩, 2⟩, ⟨.word, "π", ⟨2, 3⟩, 1⟩,
          ⟨.punctuation .semicolon, ";", ⟨2, 4⟩, 1⟩], []⟩ := by
      decide +kernel
    have hname : Vocabulary.reservedClass? "𝜃" = none := by decide
    have hconstant : Vocabulary.reservedClass? "π" = some .builtinConstant := by decide
    rw [tokenize_eq_ok_of_scan (by decide) (by decide) hscan]
    simp [classesFrom, headsCall, Context.step, Context.word, Context.name, Context.reserved,
      Lexeme.isComment, Lexeme.isOperand, Lexeme.toToken, hname, hconstant]
  have htoken : ([⟨.gate, "𝜃", ⟨2, 0⟩, 2⟩, ⟨.builtinConstant, "π", ⟨2, 3⟩, 1⟩,
      ⟨.punctuation, ";", ⟨2, 4⟩, 1⟩] : List Token)[1]? =
        some ⟨.builtinConstant, "π", ⟨2, 3⟩, 1⟩ := rfl
  obtain ⟨cut, hcut⟩ := applyChanges_token_range haccepted htoken "tau"
  exact ⟨_, _, cut, haccepted, htoken, hcut⟩

end QasmHighlight
