/-!
# UTF-16 widths

Columns and lengths are counted in UTF-16 code units: a character of the
basic plane takes one, any other a surrogate pair.
-/

namespace QasmHighlight
namespace Text

/-- The UTF-16 code units that a character takes. -/
def width (c : Char) : Nat :=
  if c.toNat < 0x10000 then 1 else 2

/-- The UTF-16 length of a text. -/
def units (text : List Char) : Nat :=
  text.foldl (fun total c => total + width c) 0

/-- The UTF-8 length of a text. -/
def bytes (text : List Char) : Nat :=
  text.foldl (fun total c => total + c.utf8Size) 0

theorem width_pos (c : Char) : 0 < width c := by
  unfold width
  split <;> omega

private theorem foldl_add_eq (f : Char → Nat) (text : List Char) (start : Nat) :
    text.foldl (fun total c => total + f c) start =
      start + text.foldl (fun total c => total + f c) 0 := by
  induction text generalizing start with
  | nil => simp
  | cons c cs ih =>
    simp only [List.foldl_cons, Nat.zero_add]
    rw [ih (start + f c), ih (f c)]
    omega

@[simp] theorem units_nil : units [] = 0 := rfl

@[simp] theorem units_cons (c : Char) (cs : List Char) :
    units (c :: cs) = width c + units cs := by
  unfold units
  rw [List.foldl_cons, foldl_add_eq]
  simp

@[simp] theorem units_append (a b : List Char) : units (a ++ b) = units a + units b := by
  induction a with
  | nil => simp
  | cons c cs ih => simp [ih, Nat.add_assoc]

@[simp] theorem bytes_nil : bytes [] = 0 := rfl

@[simp] theorem bytes_cons (c : Char) (cs : List Char) :
    bytes (c :: cs) = c.utf8Size + bytes cs := by
  unfold bytes
  rw [List.foldl_cons, foldl_add_eq]
  simp

@[simp] theorem bytes_append (a b : List Char) : bytes (a ++ b) = bytes a + bytes b := by
  induction a with
  | nil => simp
  | cons c cs ih => simp [ih, Nat.add_assoc]

end Text
end QasmHighlight
