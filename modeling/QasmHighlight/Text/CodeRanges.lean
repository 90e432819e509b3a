/-!
# Sorted ranges of code points

A character property is a list of disjoint ranges in increasing order.  The
look-up walks the ranges from the left and is decided by the first one that
does not end before the code point, so an ASCII character meets only the
first few ranges of any table.  Long tables are cut into blocks, which the
look-up passes over as a whole.
-/

namespace QasmHighlight
namespace Text

/-- Inclusive ranges of code points, disjoint and in increasing order. -/
abbrev CodeRanges := List (Nat × Nat)

def CodeRanges.contains : CodeRanges → Nat → Bool
  | [], _ => false
  | (first, last) :: more, code =>
    if code ≤ last then decide (first ≤ code) else CodeRanges.contains more code

/-- The ranges are non-empty, disjoint and in increasing order. -/
def CodeRanges.Sorted (ranges : CodeRanges) : Prop :=
  (∀ r ∈ ranges, r.1 ≤ r.2) ∧ ranges.Pairwise fun r s => r.2 < s.1

/-- On sorted ranges the look-up is membership in some range. -/
theorem CodeRanges.contains_iff {ranges : CodeRanges} (h : ranges.Sorted) (code : Nat) :
    ranges.contains code = true ↔ ∃ r ∈ ranges, r.1 ≤ code ∧ code ≤ r.2 := by
  induction ranges with
  | nil => simp [CodeRanges.contains]
  | cons r more ih =>
    obtain ⟨first, last⟩ := r
    obtain ⟨hle, hpair⟩ := h
    rw [List.pairwise_cons] at hpair
    have hmore : CodeRanges.Sorted more :=
      ⟨fun s hs => hle s (List.mem_cons_of_mem _ hs), hpair.2⟩
    simp only [CodeRanges.contains, List.mem_cons, exists_eq_or_imp]
    by_cases hlast : code ≤ last
    · simp only [hlast, if_true, decide_eq_true_eq, and_true]
      refine ⟨Or.inl, ?_⟩
      rintro (hfirst | ⟨s, hs, hlow, _⟩)
      · exact hfirst
      · have hafter : last < s.1 := hpair.1 s hs
        have hwhole : first ≤ last := hle (first, last) List.mem_cons_self
        omega
    · simp only [hlast, if_false, and_false, false_or]
      exact ih hmore

/-- Blocks of ranges in increasing order, each after the last code point it
holds. -/
abbrev CodeBlocks := List (Nat × CodeRanges)

def CodeBlocks.contains : CodeBlocks → Nat → Bool
  | [], _ => false
  | (last, ranges) :: more, code =>
    if code ≤ last then CodeRanges.contains ranges code else CodeBlocks.contains more code

/-- The ranges of each block are in order and end by its last code point, and
blocks begin after that of the block before them. -/
def CodeBlocks.Sorted (blocks : CodeBlocks) : Prop :=
  (∀ b ∈ blocks, CodeRanges.Sorted b.2 ∧ ∀ r ∈ b.2, r.2 ≤ b.1) ∧
    blocks.Pairwise fun b d => ∀ r ∈ d.2, b.1 < r.1

/-- On sorted blocks the look-up is membership in some range. -/
theorem CodeBlocks.contains_iff {blocks : CodeBlocks} (h : blocks.Sorted) (code : Nat) :
    blocks.contains code = true ↔ ∃ b ∈ blocks, ∃ r ∈ b.2, r.1 ≤ code ∧ code ≤ r.2 := by
  induction blocks with
  | nil => simp [CodeBlocks.contains]
  | cons b more ih =>
    obtain ⟨last, ranges⟩ := b
    obtain ⟨hblock, hpair⟩ := h
    rw [List.pairwise_cons] at hpair
    have hmore : CodeBlocks.Sorted more :=
      ⟨fun d hd => hblock d (List.mem_cons_of_mem _ hd), hpair.2⟩
    have hhead := hblock (last, ranges) List.mem_cons_self
    simp only [CodeBlocks.contains, List.mem_cons, exists_eq_or_imp]
    by_cases hlast : code ≤ last
    · simp only [hlast, if_true]
      rw [CodeRanges.contains_iff hhead.1]
      refine ⟨Or.inl, ?_⟩
      rintro (hfound | ⟨d, hd, r, hr, hlow, _⟩)
      · exact hfound
      · have hafter : last < r.1 := hpair.1 d hd r hr
        omega
    · simp only [hlast, if_false]
      rw [ih hmore]
      refine ⟨Or.inr, ?_⟩
      rintro (⟨r, hr, _, hhigh⟩ | hfound)
      · have hend : r.2 ≤ last := hhead.2 r hr
        omega
      · exact hfound

end Text
end QasmHighlight
