import Mathlib.Data.List.Perm.Subperm

/-!
# Offset paging

A list is read a page at a time.  A page is at most `size` entries from an
offset, the next page begins where it ends, and the reader goes on as long as
there is something left from there.

With a positive size the reader gets to the end, and the pages laid end to end
are the list (`walk_of_pos`).  With size zero the offset never moves, so a reader
that has anything left to read goes on for ever (`walk_zero`).
-/

namespace Paging

universe u

variable {α : Type u}

def page (xs : List α) (size offset : ℕ) : List α := (xs.drop offset).take size

/-- The pages from an offset on, read with `fuel` requests. -/
def walk (xs : List α) (size : ℕ) : ℕ → ℕ → Option (List (List α))
  | 0, _ => none
  | fuel + 1, offset =>
    let p := page xs size offset
    if offset + p.length < xs.length then (walk xs size fuel (offset + p.length)).map (p :: ·)
    else some [p]

variable {xs : List α} {size offset : ℕ}

theorem length_page : (page xs size offset).length = min size (xs.length - offset) := by
  rw [page, List.length_take, List.length_drop]

/-- Nothing of a page is not of the list. -/
theorem mem_of_mem_page {x : α} (h : x ∈ page xs size offset) : x ∈ xs :=
  List.mem_of_mem_drop (List.mem_of_mem_take h)

/-- A page has the whole of a list if it begins at the beginning and is long enough. -/
theorem subset_page_iff (h : xs.Nodup) :
    xs ⊆ page xs size offset ↔ xs = [] ∨ offset = 0 ∧ xs.length ≤ size := by
  constructor
  · intro hsub
    have hlen := (List.subperm_of_subset h hsub).length_le
    rw [length_page] at hlen
    rw [← List.length_eq_zero_iff]
    omega
  · rintro (rfl | ⟨rfl, hsize⟩)
    · exact List.nil_subset _
    · rw [page, List.drop_zero, List.take_of_length_le hsize]
      exact List.Subset.refl xs

/-- A page and what is left after it. -/
theorem page_append : page xs size offset ++ xs.drop (offset + (page xs size offset).length) =
    xs.drop offset := by
  rw [page, ← List.drop_drop, List.length_take]
  by_cases h : size ≤ (xs.drop offset).length
  · rw [Nat.min_eq_left h, List.take_append_drop]
  · rw [Nat.min_eq_right (by omega), List.drop_length, List.append_nil,
      List.take_of_length_le (by omega)]

/-- **With a positive size the pages are the list.** -/
theorem walk_of_pos (hsize : 0 < size) (h : offset ≤ xs.length) :
    ∃ fuel ps, walk xs size fuel offset = some ps ∧ ps.flatten = xs.drop offset := by
  induction hn : xs.length - offset using Nat.strongRecOn generalizing offset with
  | ind n ih =>
    have hlen : (page xs size offset).length = min size (xs.length - offset) := length_page
    by_cases hlt : offset + (page xs size offset).length < xs.length
    · obtain ⟨fuel, ps, hw, hps⟩ := ih _ (by omega) (Nat.le_of_lt hlt) rfl
      refine ⟨fuel + 1, page xs size offset :: ps, ?_, ?_⟩
      · rw [walk, if_pos hlt, hw]
        rfl
      · rw [List.flatten_cons, hps, page_append]
    · refine ⟨1, [page xs size offset], ?_, ?_⟩
      · rw [walk, if_neg hlt]
      · rw [List.flatten_cons, List.flatten_nil, List.append_nil]
        have hall := @page_append _ xs size offset
        rwa [List.drop_eq_nil_of_le (by omega), List.append_nil] at hall

/-- **With size zero the walk never ends**, if there is anything to read. -/
theorem walk_zero (h : offset < xs.length) (fuel : ℕ) : walk xs 0 fuel offset = none := by
  induction fuel with
  | zero => rfl
  | succ fuel ih =>
    have hlen : (page xs 0 offset).length = 0 := by rw [length_page, Nat.zero_min]
    rw [walk, hlen, Nat.add_zero, if_pos h, ih]
    rfl

/-- With nothing to read the walk ends at once. -/
theorem walk_nil (fuel : ℕ) : walk ([] : List α) size (fuel + 1) 0 = some [[]] := by
  rw [walk, page, List.drop_nil, List.take_nil]
  rfl

end Paging
