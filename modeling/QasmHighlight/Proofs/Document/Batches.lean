import QasmHighlight.Document.Store

/-!
# Changes in batches

An editor sends the changes of a document in batches.  Where a batch ends makes
no difference: a batch that ends with a new text for the whole document is not
carried out change by change, and yet leaves what carrying it out would leave.
The text of a document therefore depends on the changes sent for it and their
order, whatever the batches and whatever is sent for other documents in between.
The one trace that an empty batch leaves is the document itself: a batch for a
document that is not stored stores it, with the empty text.
-/

namespace QasmHighlight

private theorem Edited.text_foldl_step (edited : Edited) (changes : List Change) :
    (changes.foldl Edited.step edited).text =
      changes.foldl (fun text change => change.apply text) edited.text := by
  induction changes generalizing edited with
  | nil => rfl
  | cons change rest ih => exact ih (edited.step change)

/-- Not carrying out what a new text for the whole document makes void leaves
the same text. -/
theorem applyChanges_eq_foldl_apply (text : String) (changes : List Change) :
    applyChanges text changes =
      String.ofList (changes.foldl (fun text change => change.apply text) text.toList) := by
  unfold applyChanges edit
  split
  next replacement hlast =>
    obtain ⟨earlier, rfl⟩ := List.getLast?_eq_some_iff.1 hlast
    rw [List.foldl_append, List.foldl_cons, List.foldl_nil]
    exact String.ofList_toList.symm
  next =>
    dsimp only
    rw [Edited.text_foldl_step]

theorem applyChanges_append (text : String) (earlier later : List Change) :
    applyChanges text (earlier ++ later) = applyChanges (applyChanges text earlier) later := by
  rw [applyChanges_eq_foldl_apply, List.foldl_append, applyChanges_eq_foldl_apply text earlier,
    applyChanges_eq_foldl_apply _ later, String.toList_ofList]

/-! ## The store -/

/-- The changes that a client sends at one time for one document. -/
structure Batch where
  uri : String
  changes : List Change

/-- The changes that batches hold for a document, in order. -/
def changesTo (uri : String) (batches : List Batch) : List Change :=
  (batches.filter (·.uri = uri)).flatMap (·.changes)

/-- The store after batches for any of its documents. -/
def Store.changeAll (store : Store) (batches : List Batch) : Store :=
  batches.foldl (fun store batch => (store.change batch.uri batch.changes).1) store

theorem changesTo_cons_self (changes : List Change) (uri : String) (rest : List Batch) :
    changesTo uri (⟨uri, changes⟩ :: rest) = changes ++ changesTo uri rest := by
  simp [changesTo]

theorem changesTo_cons_of_ne {batch : Batch} {uri : String} (hother : batch.uri ≠ uri)
    (rest : List Batch) : changesTo uri (batch :: rest) = changesTo uri rest := by
  simp [changesTo, hother]

theorem changesTo_eq_nil_of_notMem {uri : String} {batches : List Batch}
    (hnone : uri ∉ batches.map (·.uri)) : changesTo uri batches = [] := by
  induction batches with
  | nil => rfl
  | cons batch rest ih =>
      rw [List.map_cons, List.mem_cons, not_or] at hnone
      rw [changesTo_cons_of_ne (Ne.symm hnone.1), ih hnone.2]

/-- A document that received a batch holds the outcome of all changes sent for
it, and any other document is as it was. -/
theorem Store.get?_changeAll (store : Store) (batches : List Batch) (uri : String) :
    (store.changeAll batches).get? uri =
      if uri ∈ batches.map (·.uri) then
        some (applyChanges ((store.get? uri).getD "") (changesTo uri batches))
      else store.get? uri := by
  induction batches generalizing store with
  | nil => rfl
  | cons batch rest ih =>
      obtain ⟨named, changes⟩ := batch
      have hrest : (store.changeAll (⟨named, changes⟩ :: rest)).get? uri =
          ((store.change named changes).1.changeAll rest).get? uri := rfl
      rw [hrest, ih, Store.get?_change]
      by_cases hnamed : named = uri
      · subst hnamed
        rw [changesTo_cons_self, applyChanges_append]
        by_cases hagain : named ∈ rest.map (·.uri)
        · simp [hagain]
        · simp [hagain, changesTo_eq_nil_of_notMem hagain, applyChanges_eq_foldl_apply]
      · rw [changesTo_cons_of_ne hnamed]
        simp [hnamed, Ne.symm hnamed]

/-- The text of a document with the outcome of all changes sent for it; one that
is not stored counts as empty. -/
theorem Store.getD_get?_changeAll (store : Store) (batches : List Batch) (uri : String) :
    ((store.changeAll batches).get? uri).getD "" =
      applyChanges ((store.get? uri).getD "") (changesTo uri batches) := by
  rw [Store.get?_changeAll]
  split
  next => rfl
  next hnone =>
    rw [changesTo_eq_nil_of_notMem hnone, applyChanges_eq_foldl_apply]
    exact String.ofList_toList.symm

/-- Carrying out changes at once or in two parts comes to the same, and so does
carrying them out one by one.  Two series of batches that hold the same changes
for a document therefore leave it with the same text, and if both or neither
name the document, it is stored after both or neither. -/
theorem changes_regrouped :
    (∀ (text : String) (earlier later : List Change),
      applyChanges text (earlier ++ later) = applyChanges (applyChanges text earlier) later) ∧
    (∀ (text : String) (changes : List Change),
      applyChanges text changes =
        String.ofList (changes.foldl (fun text change => change.apply text) text.toList)) ∧
    (∀ (store : Store) (batches regrouped : List Batch) (uri : String),
      changesTo uri batches = changesTo uri regrouped →
      ((store.changeAll batches).get? uri).getD "" =
          ((store.changeAll regrouped).get? uri).getD "" ∧
        ((uri ∈ batches.map (·.uri) ↔ uri ∈ regrouped.map (·.uri)) →
          (store.changeAll batches).get? uri = (store.changeAll regrouped).get? uri)) := by
  refine ⟨applyChanges_append, applyChanges_eq_foldl_apply, ?_⟩
  intro store batches regrouped uri hsame
  constructor
  · rw [Store.getD_get?_changeAll, Store.getD_get?_changeAll, hsame]
  · intro hnames
    rw [Store.get?_changeAll, Store.get?_changeAll, hsame]
    simp only [hnames]

/-- Three changes of a document that is not stored, the second of them a new
text, in one batch and in three, with an empty one and one for another document
among them. -/
theorem changes_regrouped_around_replacement :
    let insertion : Change := ⟨some ⟨⟨0, 0⟩, ⟨0, 0⟩⟩, "x q;"⟩
    let replacement : Change := ⟨none, "h q;\n"⟩
    let deletion : Change := ⟨some ⟨⟨0, 2⟩, ⟨7, 7⟩⟩, ""⟩
    let whole : List Batch := [⟨"a", [insertion, replacement, deletion]⟩]
    let parts : List Batch :=
      [⟨"a", [insertion, replacement]⟩, ⟨"a", []⟩, ⟨"b", [insertion]⟩, ⟨"a", [deletion]⟩]
    ((({} : Store).changeAll whole).get? "a" = some "h ") ∧
      (({} : Store).changeAll parts).get? "a" = some "h " := by
  intro insertion replacement deletion whole parts
  have hwhole : (({} : Store).changeAll whole).get? "a" = some "h " := by
    rw [Store.get?_changeAll, Store.get?_empty]
    decide
  have hchanges : changesTo "a" whole = changesTo "a" parts := by decide
  have hnames : "a" ∈ whole.map (·.uri) ↔ "a" ∈ parts.map (·.uri) := by decide
  have hparts := (changes_regrouped.2.2 {} whole parts "a" hchanges).2 hnames
  exact ⟨hwhole, hparts.symm.trans hwhole⟩

end QasmHighlight
