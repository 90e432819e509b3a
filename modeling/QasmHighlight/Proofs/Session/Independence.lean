import Mathlib.Data.Set.Card
import QasmHighlight.Session.Basic

/-!
# Documents do not interfere

What a session keeps of a document is its text, and every operation acts on the
text of each document by itself.  Two sessions with the same limits and the same
text of one document therefore answer every operation that names the document
alike, and they stay so if one of them also handles operations that neither
name the document nor forget all documents.  Leaving such operations out of a run
changes none of the answers about the document.
-/

namespace QasmHighlight

namespace Operation

/-- The document that an operation names. -/
def uri? : Operation → Option String
  | .openDocument uri _ _ | .changeDocument uri _ _ | .closeDocument uri | .tokens uri
  | .text uri => some uri
  | _ => none

def isClear : Operation → Bool
  | .clear => true
  | _ => false

/-- The text of a document after an operation, by its text before. -/
def textAfter (uri : String) (text : Option String) : Operation → Option String
  | .openDocument named _ opened => if named = uri then some opened else text
  | .changeDocument named _ changes =>
    if named = uri then some (applyChanges (text.getD "") changes) else text
  | .closeDocument named => if named = uri then none else text
  | .clear => none
  | _ => text

private theorem textAfter_of_not_named {operation : Operation} {uri : String}
    (hnamed : operation.uri? ≠ some uri) (hclear : operation.isClear = false)
    (text : Option String) : operation.textAfter uri text = text := by
  cases operation with
  | clear => cases hclear
  | openDocument named _ _ => exact if_neg fun h => hnamed (congrArg some h)
  | changeDocument named _ _ => exact if_neg fun h => hnamed (congrArg some h)
  | closeDocument named => exact if_neg fun h => hnamed (congrArg some h)
  | handshake | acknowledge | shutdown | setTrace | tokens | text | settings | describe => rfl

end Operation

/-! ## Runs -/

namespace Session

def fresh (limits : Limits) : Session :=
  { limits := limits }

def after (session : Session) (operations : List Operation) : Session :=
  operations.foldl (fun session operation => (session.handle operation).1) session

/-- The operations of a run, each with what came of it. -/
def answers (session : Session) : List Operation → List (Operation × Outcome)
  | [] => []
  | operation :: rest =>
    (operation, (session.handle operation).2) :: (session.handle operation).1.answers rest

@[simp] theorem limits_handle (session : Session) (operation : Operation) :
    (session.handle operation).1.limits = session.limits := by
  cases operation <;> rfl

theorem get?_handle (session : Session) (operation : Operation) (uri : String) :
    (session.handle operation).1.documents.get? uri =
      operation.textAfter uri (session.documents.get? uri) := by
  cases operation with
  | openDocument named _ opened => exact session.documents.get?_put named opened uri
  | changeDocument named _ changes =>
      have hchange := session.documents.get?_change named uri changes
      by_cases hnamed : named = uri
      · subst hnamed
        simpa [handle, Operation.textAfter] using hchange
      · simpa [handle, Operation.textAfter, hnamed] using hchange
  | closeDocument named => exact session.documents.get?_remove named uri
  | clear => exact Store.get?_empty uri
  | handshake | acknowledge | shutdown | setTrace | tokens | text | settings | describe => rfl

theorem limits_after (session : Session) (operations : List Operation) :
    (session.after operations).limits = session.limits := by
  induction operations generalizing session with
  | nil => rfl
  | cons operation rest ih =>
      rw [after, List.foldl_cons]
      exact (ih _).trans (session.limits_handle operation)

theorem get?_after (session : Session) (operations : List Operation) (uri : String) :
    (session.after operations).documents.get? uri =
      operations.foldl (Operation.textAfter uri) (session.documents.get? uri) := by
  induction operations generalizing session with
  | nil => rfl
  | cons operation rest ih =>
      rw [List.foldl_cons, ← get?_handle]
      exact ih _

/-! ## Two sessions seen from one document -/

/-- Nothing about the document named `uri` tells the sessions apart. -/
structure AgreeOn (uri : String) (one two : Session) : Prop where
  limits_eq : one.limits = two.limits
  text_eq : one.documents.get? uri = two.documents.get? uri

namespace AgreeOn

variable {uri : String} {one two : Session}

theorem handle (hagree : AgreeOn uri one two) (operation : Operation) :
    AgreeOn uri (one.handle operation).1 (two.handle operation).1 := by
  constructor
  · rw [limits_handle, limits_handle, hagree.limits_eq]
  · rw [get?_handle, get?_handle, hagree.text_eq]

theorem handle_other (hagree : AgreeOn uri one two) {operation : Operation}
    (hnamed : operation.uri? ≠ some uri) (hclear : operation.isClear = false) :
    AgreeOn uri (one.handle operation).1 two := by
  constructor
  · rw [limits_handle, hagree.limits_eq]
  · rw [get?_handle, Operation.textAfter_of_not_named hnamed hclear, hagree.text_eq]

theorem outcome_eq (hagree : AgreeOn uri one two) {operation : Operation}
    (hnamed : operation.uri? = some uri) :
    (one.handle operation).2 = (two.handle operation).2 := by
  obtain ⟨hlimits, htext⟩ := hagree
  have hcontains : one.documents.contains uri = two.documents.contains uri := by
    rw [Store.contains_eq_isSome_get?, Store.contains_eq_isSome_get?, htext]
  cases operation with
  | openDocument | text | tokens | closeDocument | changeDocument =>
      cases hnamed
      simp only [Session.handle, tokensOf, Store.change, hlimits, htext, hcontains]
  | handshake | acknowledge | shutdown | setTrace | clear | settings | describe => cases hnamed

theorem filter_answers (hagree : AgreeOn uri one two) (operations : List Operation) :
    (one.answers operations).filter (fun answer => answer.1.uri? = some uri) =
      (two.answers
        (operations.filter fun operation => operation.uri? = some uri ∨ operation.isClear)).filter
          fun answer => answer.1.uri? = some uri := by
  induction operations generalizing one two with
  | nil => rfl
  | cons operation rest ih =>
      by_cases hnamed : operation.uri? = some uri
      · have houtcome := hagree.outcome_eq hnamed
        have hrest := ih (hagree.handle operation)
        simp only [answers, hnamed, houtcome, hrest, decide_true, List.filter_cons_of_pos,
          true_or]
      · by_cases hclear : operation.isClear = true
        · have hrest := ih (hagree.handle operation)
          simp [answers, hnamed, hclear, hrest]
        · have hrest := ih (hagree.handle_other hnamed (Bool.eq_false_iff.2 hclear))
          simp [answers, hnamed, hclear, hrest]

end AgreeOn
end Session

/-! ## The number of documents -/

theorem Store.encard_get? (store : Store) :
    {uri | ∃ text, store.get? uri = some text}.encard = store.size := by
  have hkeys : {uri | ∃ text, store.get? uri = some text} =
      (store.documents.keys.toFinset : Set String) := by
    ext uri
    rw [List.coe_toFinset]
    simp [Store.get?, ← Option.isSome_iff_exists]
  have hnodup : store.documents.keys.Nodup := Std.HashMap.nodup_keys
  rw [hkeys, Set.encard_coe_eq_coe_finsetCard, List.toFinset_card_of_nodup hnodup,
    Std.HashMap.length_keys, Store.size]

/-- The answers to the operations that name a document are those of the run
without all operations that neither name it nor forget all documents.  After
each step there are as many documents as there are names that a text is stored
for. -/
theorem documents_independent
    (limits : Limits) (operations : List Operation) (uri : String) :
    ((Session.fresh limits).answers operations).filter
        (fun answer => answer.1.uri? = some uri) =
      ((Session.fresh limits).answers
        (operations.filter fun operation => operation.uri? = some uri ∨ operation.isClear)).filter
          (fun answer => answer.1.uri? = some uri) ∧
    ∀ steps,
      {other | ∃ text,
        (((Session.fresh limits).after (operations.take steps)).handle
          (.text other)).2.result = .text (some text)}.encard =
        ((Session.fresh limits).after (operations.take steps)).documents.size := by
  constructor
  · have hagree : Session.AgreeOn uri (.fresh limits) (.fresh limits) := ⟨rfl, rfl⟩
    exact hagree.filter_answers operations
  · intro steps
    rw [← Store.encard_get?]
    congr 1
    ext other
    simp [Session.handle]

end QasmHighlight
