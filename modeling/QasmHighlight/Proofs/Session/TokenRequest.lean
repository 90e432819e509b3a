import QasmHighlight.Proofs.Session.Independence
import QasmHighlight.Proofs.Token.Placement
import QasmHighlight.Protocol.Server

/-!
# Requests for tokens

A request for the tokens of a document reads its text and changes nothing, so
requests can be left out of a run and all other answers stay as they are.  The
answer is decided by the stored text and the limits alone.  It is empty for a
document that is not stored, an internal error for a text that is larger than
the limits allow, and the wire form of the text's tokens in all other cases.
-/

namespace QasmHighlight

def Operation.asksTokens : Operation → Bool
  | .tokens _ => true
  | _ => false

/-- The members of a run without the requests for tokens at the places that
`dropped` tells; `operation` tells the operation of a member. -/
def withoutRequests {α : Type} (operation : α → Operation) (dropped : Nat → Bool) :
    List α → List α
  | [] => []
  | member :: rest =>
    if dropped 0 && (operation member).asksTokens then
      withoutRequests operation (fun place => dropped (place + 1)) rest
    else member :: withoutRequests operation (fun place => dropped (place + 1)) rest

namespace Session

theorem handle_of_asksTokens (session : Session) {operation : Operation}
    (hasks : operation.asksTokens = true) : (session.handle operation).1 = session := by
  cases operation with
  | tokens uri => rfl
  | handshake | acknowledge | shutdown | setTrace | openDocument | changeDocument
  | closeDocument | text | clear | settings | describe => cases hasks

theorem answers_withoutRequests
    (session : Session) (dropped : Nat → Bool) (operations : List Operation) :
    session.answers (withoutRequests id dropped operations) =
      withoutRequests Prod.fst dropped (session.answers operations) := by
  induction operations generalizing session dropped with
  | nil => rfl
  | cons operation rest ih =>
      rw [answers, withoutRequests, withoutRequests, id_eq]
      by_cases hdropped : (dropped 0 && operation.asksTokens) = true
      · have hasks : operation.asksTokens = true := (Bool.and_eq_true_iff.1 hdropped).2
        rw [if_pos hdropped, if_pos hdropped, session.handle_of_asksTokens hasks]
        exact ih session _
      · rw [if_neg hdropped, if_neg hdropped, ← ih]
        rfl

/-! ## The answer -/

theorem result_tokens_of_absent {session : Session} {uri : String}
    (habsent : session.documents.get? uri = none) :
    (session.handle (.tokens uri)).2.result = .tokens [] := by
  simp only [handle, tokensOf, habsent]

theorem result_tokens_of_accepted {session : Session} {uri text : String} {found : Tokenized}
    (hstored : session.documents.get? uri = some text)
    (haccepted : tokenize session.limits text = .ok found) :
    (session.handle (.tokens uri)).2.result = .tokens (encode found.tokens) := by
  simp only [handle, tokensOf, hstored, highlight, haccepted]

theorem result_tokens_of_refused {session : Session} {uri text : String} {refusal : Refusal}
    (hstored : session.documents.get? uri = some text)
    (hrefused : tokenize session.limits text = .error refusal) :
    (session.handle (.tokens uri)).2.result = .refused refusal := by
  simp only [handle, tokensOf, hstored, highlight, hrefused]

end Session

private theorem tokenize_of_le {limits : Limits} {text : String}
    (hbytes : text.utf8ByteSize ≤ limits.maxBytes)
    (hcount : (scan text.toList).lexemes.length ≤ limits.maxTokens) :
    tokenize limits text =
      .ok ⟨classify (scan text.toList).lexemes, (scan text.toList).diagnostics⟩ :=
  tokenize_eq_ok_iff.2 ⟨hbytes, hcount, rfl⟩

private theorem exists_refusal_of_lt {limits : Limits} {text : String}
    (hlarge : limits.maxBytes < text.utf8ByteSize ∨
      limits.maxTokens < (scan text.toList).lexemes.length) :
    ∃ refusal, tokenize limits text = .error refusal := by
  cases hresult : tokenize limits text with
  | error refusal => exact ⟨refusal, rfl⟩
  | ok found =>
      obtain ⟨hbytes, hcount, _⟩ := tokenize_eq_ok_iff.1 hresult
      omega

theorem Session.content_tokens_eq_error_iff (session : Session) (uri : String) :
    (∃ error, Protocol.Server.content (session.handle (.tokens uri)).2.result = .error error ∧
        error.code = -32603) ↔
      ∃ text, session.documents.get? uri = some text ∧
        (session.limits.maxBytes < text.utf8ByteSize ∨
          session.limits.maxTokens < (scan text.toList).lexemes.length) := by
  constructor
  · rintro ⟨error, hcontent, _⟩
    cases hstored : session.documents.get? uri with
    | none =>
        rw [result_tokens_of_absent hstored] at hcontent
        cases hcontent
    | some text =>
        refine ⟨text, rfl, ?_⟩
        by_contra hwithin
        rw [not_or, Nat.not_lt, Nat.not_lt] at hwithin
        have haccepted := tokenize_of_le hwithin.1 hwithin.2
        rw [result_tokens_of_accepted hstored haccepted] at hcontent
        cases hcontent
  · rintro ⟨text, hstored, hlarge⟩
    obtain ⟨refusal, hrefused⟩ := exists_refusal_of_lt hlarge
    rw [result_tokens_of_refused hstored hrefused]
    exact ⟨.failed refusal.message, rfl, rfl⟩

/-- In every state that a session can reach, a request for the tokens of a document
leaves the state as it is, and any such requests can be left out of the run.  The
answer is empty if the document is not stored, an internal error exactly if
its text has more bytes or more lexemes than the limits allow, and otherwise the
wire form of its tokens.  Two runs that end with one text of the document give
one answer. -/
theorem tokens_request_exact (limits : Limits) (operations : List Operation) (uri : String) :
    let session := (Session.fresh limits).after operations
    let result := (session.handle (.tokens uri)).2.result
    (session.handle (.tokens uri)).1 = session ∧
    (∀ dropped,
      (Session.fresh limits).answers (withoutRequests id dropped operations) =
        withoutRequests Prod.fst dropped ((Session.fresh limits).answers operations)) ∧
    (session.documents.get? uri = none → result = .tokens []) ∧
    ((∃ error, Protocol.Server.content result = .error error ∧ error.code = -32603) ↔
      ∃ text, session.documents.get? uri = some text ∧
        (limits.maxBytes < text.utf8ByteSize ∨
          limits.maxTokens < (scan text.toList).lexemes.length)) ∧
    (∀ text, session.documents.get? uri = some text →
      text.utf8ByteSize ≤ limits.maxBytes →
      (scan text.toList).lexemes.length ≤ limits.maxTokens →
      ∃ found, tokenize limits text = .ok found ∧
        found.tokens = classify (scan text.toList).lexemes ∧
        result = .tokens (encode found.tokens)) ∧
    ∀ others,
      ((Session.fresh limits).after others).documents.get? uri =
        session.documents.get? uri →
      (((Session.fresh limits).after others).handle (.tokens uri)).2 =
        (session.handle (.tokens uri)).2 := by
  intro session result
  have hlimits : session.limits = limits := Session.limits_after (.fresh limits) operations
  refine ⟨rfl, ?_, Session.result_tokens_of_absent, ?_, ?_, ?_⟩
  · intro dropped
    exact (Session.fresh limits).answers_withoutRequests dropped operations
  · rw [← hlimits]
    exact session.content_tokens_eq_error_iff uri
  · intro text hstored hbytes hcount
    have haccepted := tokenize_of_le hbytes hcount
    refine ⟨_, haccepted, rfl, ?_⟩
    rw [← hlimits] at haccepted
    exact Session.result_tokens_of_accepted hstored haccepted
  · intro others htext
    have hagree : Session.AgreeOn uri ((Session.fresh limits).after others) session := by
      constructor
      · rw [Session.limits_after, hlimits]
        rfl
      · exact htext
    exact hagree.outcome_eq rfl

/-- A small edit after a refused request, and another document that was closed. -/
theorem tokens_request_exact_after_refusal :
    let limits : Limits := ⟨8, 3⟩
    let session := (Session.fresh limits).after
      [.openDocument "u" 1 "qubit[16] q;", .tokens "u",
       .changeDocument "u" 2 [⟨some ⟨⟨0, 5⟩, ⟨0, 10⟩⟩, ""⟩, ⟨some ⟨⟨0, 0⟩, ⟨0, 5⟩⟩, "bit "⟩],
       .openDocument "v" 3 "x", .closeDocument "v"]
    (session.documents.get? "v" = none ∧
      (session.handle (.tokens "v")).2.result = .tokens []) ∧
    (session.documents.get? "u" = some "bit q;" ∧
      ∃ found, tokenize limits "bit q;" = .ok found ∧
        found.tokens = classify (scan "bit q;".toList).lexemes ∧
        (session.handle (.tokens "u")).2.result = .tokens (encode found.tokens)) ∧
    ((Session.fresh limits).after [.openDocument "u" 1 "bit q;"]).documents.get? "u" =
      session.documents.get? "u" ∧
    (((Session.fresh limits).after [.openDocument "u" 1 "bit q;"]).handle (.tokens "u")).2 =
      (session.handle (.tokens "u")).2 := by
  intro limits session
  have habsent : session.documents.get? "v" = none := by
    rw [Session.get?_after]
    decide +kernel
  have hstored : session.documents.get? "u" = some "bit q;" := by
    rw [Session.get?_after]
    decide +kernel
  have hother : ((Session.fresh limits).after [.openDocument "u" 1 "bit q;"]).documents.get? "u" =
      session.documents.get? "u" := by
    rw [hstored, Session.get?_after]
    decide +kernel
  have hcount : (scan "bit q;".toList).lexemes.length ≤ limits.maxTokens := by
    decide +kernel
  obtain ⟨_, _, hempty, _, _, _⟩ := tokens_request_exact limits _ "v"
  obtain ⟨_, _, _, _, haccepted, hsame⟩ := tokens_request_exact limits _ "u"
  exact ⟨⟨habsent, hempty habsent⟩, ⟨hstored, haccepted _ hstored (by decide) hcount⟩, hother,
    hsame _ hother⟩

end QasmHighlight
