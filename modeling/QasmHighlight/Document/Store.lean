import QasmHighlight.Document.Change
import Std.Data.HashMap

/-!
# Document store

The texts of the open documents by URI.  Changes to a document that is not
stored begin with the empty text, and store it.
-/

namespace QasmHighlight

/-- The texts of the open documents by URI. -/
structure Store where
  documents : Std.HashMap String String := ∅

namespace Store

def put (store : Store) (uri text : String) : Store :=
  ⟨store.documents.insert uri text⟩

def get? (store : Store) (uri : String) : Option String :=
  store.documents[uri]?

def contains (store : Store) (uri : String) : Bool :=
  store.documents.contains uri

def remove (store : Store) (uri : String) : Store :=
  ⟨store.documents.erase uri⟩

def size (store : Store) : Nat :=
  store.documents.size

def isEmpty (store : Store) : Bool :=
  store.documents.isEmpty

/-- Changes a document, and tells its new text and the splices made. -/
def change (store : Store) (uri : String) (changes : List Change) :
    Store × String × List Splice :=
  let edited := edit ((store.get? uri).getD "") changes
  (store.put uri edited.1, edited)

@[simp] theorem get?_empty (uri : String) : ({} : Store).get? uri = none :=
  Std.HashMap.getElem?_empty

theorem get?_put (store : Store) (uri text other : String) :
    (store.put uri text).get? other = if uri = other then some text else store.get? other := by
  simp [get?, put, Std.HashMap.getElem?_insert]

theorem get?_remove (store : Store) (uri other : String) :
    (store.remove uri).get? other = if uri = other then none else store.get? other := by
  simp [get?, remove, Std.HashMap.getElem?_erase]

theorem get?_change (store : Store) (uri other : String) (changes : List Change) :
    (store.change uri changes).1.get? other =
      if uri = other then some (applyChanges ((store.get? uri).getD "") changes)
      else store.get? other :=
  get?_put store uri _ other

theorem contains_eq_isSome_get? (store : Store) (uri : String) :
    store.contains uri = (store.get? uri).isSome :=
  Std.HashMap.contains_eq_isSome_getElem?

end Store
end QasmHighlight
