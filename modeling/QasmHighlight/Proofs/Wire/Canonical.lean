import QasmHighlight.Proofs.Wire.Arrangement

/-!
# Wire forms that encoding gives

An editor may send any quintuples of words.  Decoding them is adding distances
up: it fails exactly if a sum, taken without a bound, is no word, and otherwise
gives tokens in order.  Encoding these tokens again gives the quintuples that
were decoded if each of them is canonical: it has a length, a class of the legend
and no modifiers.  One that is not canonical does not come back, because a token
without a length is dropped and all others get a class of the legend and no
modifiers.
-/

namespace QasmHighlight

open Text

namespace Quintuple

def FitsWords (q : Quintuple) : Prop :=
  ∀ n ∈ q.toList, n < wordBound

/-- The quintuple with a class of the legend and no modifiers. -/
def normal (q : Quintuple) : Quintuple :=
  { q with tokenType := (TokenClass.ofIndex q.tokenType).index, modifiers := 0 }

private theorem FitsWords.deltaStart_lt {q : Quintuple} (hwords : q.FitsWords) :
    q.deltaStart < wordBound := by
  apply hwords
  simp [toList]

theorem normal_eq_self_iff {q : Quintuple} :
    q.normal = q ↔ q.tokenType < 17 ∧ q.modifiers = 0 := by
  constructor
  · intro hnormal
    rw [← hnormal]
    exact ⟨TokenClass.index_lt _, rfl⟩
  · rintro ⟨htype, hmodifiers⟩
    simp only [normal, TokenClass.index_ofIndex htype, ← hmodifiers]

theorem notAfter_tokenAfter (line start : Nat) (q : Quintuple) :
    (⟨line + 1, start⟩ : Position).notAfter (q.tokenAfter line start).position = true := by
  rw [Position.notAfter_iff]
  simp only [tokenAfter, lineAfter, startAfter]
  split <;> omega

theorem ofToken_tokenAfter (line start : Nat) (q : Quintuple) :
    ofToken line start (q.tokenAfter line start) = q.normal := by
  have hline : line + q.deltaLine + 1 - 1 - line = q.deltaLine := by omega
  simp only [ofToken, tokenAfter, normal, lineAfter, startAfter, hline]
  by_cases hsame : q.deltaLine = 0
  · simp [hsame]
  · simp [hsame]

end Quintuple

/-- The zero-based line to which quintuples lead from `line`. -/
def runningLine (line : Nat) (data : List Quintuple) : Nat :=
  data.foldl Quintuple.lineAfter line

/-- The column to which quintuples lead from `start`. -/
def runningStart (start : Nat) (data : List Quintuple) : Nat :=
  data.foldl Quintuple.startAfter start

/-- The tokens of quintuples after a zero-based position. -/
def absolute (line start : Nat) : List Quintuple → List Token
  | [] => []
  | q :: rest =>
    q.tokenAfter line start :: absolute (q.lineAfter line) (q.startAfter start) rest

@[simp] theorem length_absolute (line start : Nat) (data : List Quintuple) :
    (absolute line start data).length = data.length := by
  induction data generalizing line start with
  | nil => rfl
  | cons q rest ih => simp [absolute, ih]

theorem relative_absolute (line start : Nat) (data : List Quintuple) :
    relative line start (absolute line start data) = data.map Quintuple.normal := by
  induction data generalizing line start with
  | nil => rfl
  | cons q rest ih =>
      rw [absolute, relative, q.ofToken_tokenAfter, List.map_cons]
      congr 1
      exact ih (q.lineAfter line) (q.startAfter start)

theorem notAfter_of_mem_absolute {line start : Nat} {data : List Quintuple} {token : Token}
    (htoken : token ∈ absolute line start data) :
    (⟨line + 1, start⟩ : Position).notAfter token.position = true := by
  induction data generalizing line start with
  | nil => cases htoken
  | cons q rest ih =>
      rcases List.mem_cons.1 htoken with rfl | hlater
      · exact q.notAfter_tokenAfter line start
      · exact Position.notAfter_trans (q.notAfter_tokenAfter line start) (ih hlater)

theorem pairwise_absolute (line start : Nat) (data : List Quintuple) :
    (absolute line start data).Pairwise fun a b => a.position.notAfter b.position = true := by
  induction data generalizing line start with
  | nil => exact .nil
  | cons q rest ih =>
      rw [absolute, List.pairwise_cons]
      constructor
      · intro later hlater
        exact notAfter_of_mem_absolute hlater
      · exact ih (q.lineAfter line) (q.startAfter start)

theorem isShown_absolute_iff (line start : Nat) {data : List Quintuple} :
    (∀ token ∈ absolute line start data, token.isShown = true) ↔ ∀ q ∈ data, 0 < q.length := by
  induction data generalizing line start with
  | nil => simp [absolute]
  | cons q rest ih =>
      have hhead : (q.tokenAfter line start).isShown = true ↔ 0 < q.length := by
        rw [Token.isShown_iff]
        exact ⟨And.right, fun hlength => ⟨Nat.le_add_left 1 _, hlength⟩⟩
      rw [absolute, List.forall_mem_cons, List.forall_mem_cons, hhead, ih]

/-! ## Decoding -/

/-- A position that is past the words: its one-based line or its column is none. -/
def PastWords (line start : Nat) : Prop :=
  wordBound - 1 ≤ line ∨ wordBound ≤ start

/-- Decoding fails if some of the quintuples lead past the words, and otherwise
gives the tokens of all. -/
theorem Decoded.foldlM_push_cases
    (decoded : Decoded) {data : List Quintuple} (hwords : ∀ q ∈ data, q.FitsWords)
    (hroom : ¬ PastWords decoded.line decoded.start) :
    (data.foldlM Decoded.push decoded = .error .overflow ∧
      ∃ before, before <+: data ∧
        PastWords (runningLine decoded.line before) (runningStart decoded.start before)) ∨
    ((∃ final, data.foldlM Decoded.push decoded = .ok final ∧
        final.tokens.toList =
          decoded.tokens.toList ++ absolute decoded.line decoded.start data) ∧
      ∀ before, before <+: data →
        ¬ PastWords (runningLine decoded.line before) (runningStart decoded.start before)) := by
  induction data generalizing decoded with
  | nil =>
      right
      refine ⟨⟨decoded, rfl, by simp [absolute]⟩, ?_⟩
      intro before hbefore
      rw [List.prefix_nil.1 hbefore]
      exact hroom
  | cons q rest ih =>
      rw [List.forall_mem_cons] at hwords
      have hstep := decoded.push_eq hwords.1.deltaStart_lt
      by_cases hpast : PastWords (q.lineAfter decoded.line) (q.startAfter decoded.start)
      · left
        rw [if_neg] at hstep
        · refine ⟨?_, [q], ?_, hpast⟩
          · rw [List.foldlM_cons, hstep]
            rfl
          · exact List.prefix_append [q] rest
        · unfold PastWords at hpast
          omega
      · have hfits : q.lineAfter decoded.line + 1 < wordBound ∧
            q.startAfter decoded.start < wordBound := by
          unfold PastWords at hpast
          omega
        rw [if_pos hfits] at hstep
        rw [List.foldlM_cons, hstep]
        rcases ih (decoded.advance q) hwords.2 hpast with
          ⟨hfails, before, hbefore, hover⟩ | ⟨⟨final, hrun, htokens⟩, hbelow⟩
        · left
          refine ⟨hfails, q :: before, ?_, hover⟩
          exact List.cons_prefix_cons.2 ⟨rfl, hbefore⟩
        · right
          refine ⟨⟨final, hrun, ?_⟩, ?_⟩
          · rw [htokens]
            simp [absolute, Decoded.advance]
          · intro before hbefore
            rcases List.prefix_cons_iff.1 hbefore with rfl | ⟨more, rfl, hmore⟩
            · exact hroom
            · exact hbelow more hmore

theorem decode_cases {data : List Quintuple} (hwords : ∀ q ∈ data, q.FitsWords) :
    (decode data = .error .overflow ∧
      ∃ before, before <+: data ∧ PastWords (runningLine 0 before) (runningStart 0 before)) ∨
    (decode data = .ok (absolute 0 0 data) ∧
      ∀ before, before <+: data → ¬ PastWords (runningLine 0 before) (runningStart 0 before)) := by
  have hroom : ¬ PastWords 0 0 := by
    unfold PastWords wordBound
    omega
  unfold decode
  rcases Decoded.foldlM_push_cases {} hwords hroom with
    ⟨hfails, hover⟩ | ⟨⟨final, hrun, htokens⟩, hbelow⟩
  · left
    rw [hfails]
    exact ⟨rfl, hover⟩
  · right
    rw [hrun]
    refine ⟨?_, hbelow⟩
    simpa [bind, Except.bind, pure, Except.pure] using htokens

/-! ## Encoding again -/

theorem encode_absolute (data : List Quintuple) :
    encode (absolute 0 0 data) = relative 0 0 ((absolute 0 0 data).filter Token.isShown) := by
  rw [encode_eq_relative, arranged_of_pairwise (pairwise_absolute 0 0 data)]

private theorem map_normal_eq_self_iff {data : List Quintuple} :
    data.map Quintuple.normal = data ↔ ∀ q ∈ data, q.tokenType < 17 ∧ q.modifiers = 0 := by
  induction data with
  | nil => simp
  | cons q rest ih =>
      rw [List.map_cons, List.cons.injEq, List.forall_mem_cons, ih, Quintuple.normal_eq_self_iff]

theorem encode_absolute_eq_self_iff {data : List Quintuple} :
    encode (absolute 0 0 data) = data ↔
      ∀ q ∈ data, 0 < q.length ∧ q.tokenType < 17 ∧ q.modifiers = 0 := by
  rw [encode_absolute]
  constructor
  · intro hback
    have hall : (absolute 0 0 data).filter Token.isShown = absolute 0 0 data := by
      have hlength := congrArg List.length hback
      rw [length_relative] at hlength
      apply List.filter_sublist.eq_of_length
      rw [hlength, length_absolute]
    rw [hall, relative_absolute, map_normal_eq_self_iff] at hback
    have hlengths := (isShown_absolute_iff 0 0).1 (List.filter_eq_self.1 hall)
    intro q hq
    exact ⟨hlengths q hq, hback q hq⟩
  · intro hcanonical
    have hshown := (isShown_absolute_iff 0 0).2 fun q hq => (hcanonical q hq).1
    rw [List.filter_eq_self.2 hshown, relative_absolute, map_normal_eq_self_iff]
    intro q hq
    exact (hcanonical q hq).2

/-- Decoding fails exactly if the exact sums lead to a line whose number is no
word or to a column that is none.  Whenever it does not fail, encoding gives
the quintuples back exactly if all of them have a length, a class of the legend
and no modifiers. -/
theorem encode_decode_canonical {data : List Quintuple} (hwords : ∀ q ∈ data, q.FitsWords) :
    (decode data = .error .overflow ↔
      ∃ before, before <+: data ∧
        (wordBound - 1 ≤ runningLine 0 before ∨ wordBound ≤ runningStart 0 before)) ∧
    ∀ tokens, decode data = .ok tokens →
      (encode tokens = data ↔
        ∀ q ∈ data, 0 < q.length ∧ q.tokenType < 17 ∧ q.modifiers = 0) := by
  rcases decode_cases hwords with ⟨hfails, hover⟩ | ⟨hdecoded, hbelow⟩
  · refine ⟨⟨fun _ => hover, fun _ => hfails⟩, ?_⟩
    intro tokens htokens
    rw [hfails] at htokens
    cases htokens
  · constructor
    · constructor
      · intro hfails
        rw [hdecoded] at hfails
        cases hfails
      · rintro ⟨before, hbefore, hpast⟩
        exact absurd hpast (hbelow before hbefore)
    · intro tokens htokens
      rw [hdecoded, Except.ok.injEq] at htokens
      rw [← htokens]
      exact encode_absolute_eq_self_iff

/-- A stream that leads to the last column and to the last line. -/
theorem encode_decode_canonical_last_words :
    let data : List Quintuple :=
      [⟨1, 4294967290, 3, 9, 0⟩, ⟨0, 5, 1, 2, 0⟩, ⟨4294967293, 7, 2, 16, 0⟩]
    (∀ q ∈ data, q.FitsWords) ∧
    (decode data = .error .overflow ↔
      ∃ before, before <+: data ∧
        (wordBound - 1 ≤ runningLine 0 before ∨ wordBound ≤ runningStart 0 before)) ∧
    ∃ tokens, decode data = .ok tokens ∧
      (encode tokens = data ↔
        ∀ q ∈ data, 0 < q.length ∧ q.tokenType < 17 ∧ q.modifiers = 0) := by
  intro data
  have hwords : ∀ q ∈ data, ∀ n ∈ q.toList, n < wordBound := by
    decide
  have hdecode : decode data = .ok
      [⟨.punctuation, "", ⟨2, 4294967290⟩, 3⟩, ⟨.identifier, "", ⟨2, 4294967295⟩, 1⟩,
       ⟨.hardwareQubit, "", ⟨4294967295, 7⟩, 2⟩] := rfl
  obtain ⟨hfails, hback⟩ := encode_decode_canonical hwords
  exact ⟨hwords, hfails, _, hdecode, hback _ hdecode⟩

end QasmHighlight
