import QasmHighlight.Text.Slice
import QasmHighlight.Text.Width

/-!
# Byte slices of a text in parts

A text that is put together from parts is taken apart again by the UTF-8
lengths of the parts.  No part of a text has more characters, or more UTF-16
code units, than it has bytes.
-/

namespace QasmHighlight
namespace Text

private theorem dropBytes_zero (text : List Char) : dropBytes 0 text = text := by
  cases text with
  | nil => rfl
  | cons c rest =>
      have hpos := c.utf8Size_pos
      have hlarge : ¬ c.utf8Size ≤ 0 := by omega
      rw [dropBytes, if_neg hlarge]

theorem dropBytes_append (before rest : List Char) :
    dropBytes (bytes before) (before ++ rest) = rest := by
  induction before with
  | nil => exact dropBytes_zero rest
  | cons c more ih =>
      have hfits : c.utf8Size ≤ c.utf8Size + bytes more := Nat.le_add_right _ _
      rw [bytes_cons, List.cons_append, dropBytes, if_pos hfits, Nat.add_sub_cancel_left, ih]

private theorem takeBytesOnto_append (taken before rest : List Char) :
    takeBytesOnto taken (bytes before) (before ++ rest) = taken.reverse ++ before := by
  induction before generalizing taken with
  | nil =>
      cases rest with
      | nil => simp [takeBytesOnto]
      | cons c more =>
          have hpos := c.utf8Size_pos
          have hlarge : ¬ c.utf8Size ≤ 0 := by omega
          simp [takeBytesOnto, hlarge]
  | cons c more ih =>
      have hfits : c.utf8Size ≤ c.utf8Size + bytes more := Nat.le_add_right _ _
      rw [bytes_cons, List.cons_append, takeBytesOnto, if_pos hfits, Nat.add_sub_cancel_left, ih]
      simp

/-- Cutting a text in three parts at the byte offsets of the middle part gives
the middle part. -/
theorem slice_append (before middle rest : List Char) :
    slice (bytes before) (bytes before + bytes middle) (before ++ middle ++ rest) = middle := by
  unfold slice takeBytes
  rw [List.append_assoc, dropBytes_append, Nat.add_sub_cancel_left, takeBytesOnto_append]
  rfl

theorem isBoundary_bytes_append (before rest : List Char) :
    isBoundary (bytes before) (before ++ rest) = true := by
  induction before with
  | nil => simp [isBoundary]
  | cons c more ih =>
      have hpos := c.utf8Size_pos
      have hne : bytes (c :: more) ≠ 0 := by
        rw [bytes_cons]
        omega
      rw [List.cons_append, isBoundary, bytes_cons, Nat.add_sub_cancel_left, ih,
        decide_eq_true (Nat.le_add_right _ _)]
      · rfl
      · exact hne

theorem width_le_utf8Size (c : Char) : width c ≤ c.utf8Size := by
  have hpos := c.utf8Size_pos
  unfold width
  split
  · exact hpos
  · next hastral =>
    have hfour : c.utf8Size = 4 := by
      rw [Char.utf8Size_eq_four_iff, UInt32.lt_iff_toNat_lt]
      have hcode : c.toNat = c.val.toNat := rfl
      simp only [UInt32.reduceToNat]
      omega
    omega

theorem units_le_bytes (text : List Char) : units text ≤ bytes text := by
  induction text with
  | nil => simp
  | cons c rest ih =>
      have hwidth := width_le_utf8Size c
      rw [units_cons, bytes_cons]
      omega

theorem length_le_bytes (text : List Char) : text.length ≤ bytes text := by
  induction text with
  | nil => simp
  | cons c rest ih =>
      have hpos := c.utf8Size_pos
      rw [List.length_cons, bytes_cons]
      omega

theorem bytes_toList (text : String) : bytes text.toList = text.utf8ByteSize := by
  induction text using String.push_induction with
  | empty => rfl
  | push rest c ih => simp [ih]

theorem units_pos {text : List Char} (hne : text ≠ []) : 0 < units text := by
  obtain ⟨c, rest, rfl⟩ := List.exists_cons_of_ne_nil hne
  have hwidth := width_pos c
  rw [units_cons]
  omega

end Text
end QasmHighlight
