import Mathlib.Algebra.Order.Group.Multiset
import Mathlib.Tactic.Abel

/-!
# Places in a list

What stands at a place of a list after one more entry at its end, after one entry
is replaced, and in a list it is the beginning of.
-/

namespace Places

universe u

variable {α : Type u} {xs ys : List α} {a b : α} {i j : ℕ}

theorem getElem?_concat_cases (h : (xs ++ [a])[i]? = some b) :
    xs[i]? = some b ∨ (i = xs.length ∧ b = a) := by
  by_cases hi : i < xs.length
  · rw [List.getElem?_append_left hi] at h
    exact Or.inl h
  · rw [List.getElem?_append_right (by omega), List.getElem?_singleton] at h
    split at h
    · exact Or.inr ⟨by omega, (Option.some.inj h).symm⟩
    · cases h

theorem getElem?_append_of_some (h : xs[i]? = some a) : (xs ++ ys)[i]? = some a := by
  rw [List.getElem?_append_left (List.getElem?_eq_some_iff.mp h).1, h]

theorem getElem?_of_prefix (hxs : xs <+: ys) (h : xs[i]? = some a) : ys[i]? = some a := by
  obtain ⟨rest, rfl⟩ := hxs
  exact getElem?_append_of_some h

/-- The entry replaced is the new one, the others are what they were. -/
theorem getElem?_set_cases (h : (xs.set i a)[j]? = some b) :
    (j = i ∧ b = a) ∨ (j ≠ i ∧ xs[j]? = some b) := by
  by_cases hij : i = j
  · subst hij
    have hi : i < xs.length := by
      have hlen := (List.getElem?_eq_some_iff.mp h).1
      rwa [List.length_set] at hlen
    rw [List.getElem?_set_self hi] at h
    exact Or.inl ⟨rfl, (Option.some.inj h).symm⟩
  · rw [List.getElem?_set_ne hij] at h
    exact Or.inr ⟨Ne.symm hij, h⟩

theorem getElem?_set_of_ne (h : xs[j]? = some b) (hij : j ≠ i) : (xs.set i a)[j]? = some b := by
  rw [List.getElem?_set_ne (Ne.symm hij), h]

theorem getElem?_set_of_some (h : xs[i]? = some b) : (xs.set i a)[i]? = some a :=
  List.getElem?_set_self (List.getElem?_eq_some_iff.mp h).1

/-- What all entries have after one that has it is replaced. -/
theorem forall_mem_set_iff {P : α → Prop} (h : xs[i]? = some b) (hb : P b) :
    (∀ x ∈ xs.set i a, P x) ↔ (∀ x ∈ xs, P x) ∧ P a := by
  constructor
  · intro hall
    refine ⟨fun x hx => ?_, ?_⟩
    · obtain ⟨j, hj⟩ := List.mem_iff_getElem?.mp hx
      by_cases hji : j = i
      · subst hji
        rw [h] at hj
        cases hj
        exact hb
      · exact hall x (List.mem_of_getElem? (getElem?_set_of_ne hj hji))
    · exact hall a (List.mem_of_getElem? (getElem?_set_of_some h))
  · rintro ⟨hall, ha⟩ x hx
    rcases List.mem_or_eq_of_mem_set hx with hx | rfl
    · exact hall x hx
    · exact ha

/-- A count after one entry is replaced. -/
theorem countP_set {p : α → Bool} (h : xs[i]? = some b) :
    (xs.set i a).countP p + (p b).toNat = xs.countP p + (p a).toNat := by
  obtain ⟨hi, rfl⟩ := List.getElem?_eq_some_iff.mp h
  have hpos : p xs[i] = true → 0 < xs.countP p :=
    fun hb => List.countP_pos_iff.mpr ⟨xs[i], List.getElem_mem hi, hb⟩
  rw [List.countP_set hi]
  cases hb : p xs[i] with
  | true =>
    have hone := hpos hb
    cases p a <;> simp <;> omega
  | false => cases p a <;> simp

/-- It is the same if the new one counts for as much. -/
theorem countP_set_of_eq {p : α → Bool} (h : xs[i]? = some b) (hp : p a = p b) :
    (xs.set i a).countP p = xs.countP p := by
  have hcount := countP_set (a := a) (p := p) h
  rw [hp] at hcount
  omega

/-- What the entries come to together after one of them is replaced. -/
theorem flatMap_set {β : Type*} {f : α → List β} (h : xs[i]? = some b) :
    ((xs.set i a).flatMap f ++ f b).Perm (xs.flatMap f ++ f a) := by
  induction xs generalizing i with
  | nil => cases h
  | cons x xs ih =>
    cases i with
    | zero =>
      obtain rfl := Option.some.inj h
      rw [List.set_cons_zero, List.flatMap_cons, List.flatMap_cons, ← Multiset.coe_eq_coe]
      simp only [← Multiset.coe_add]
      abel
    | succ i =>
      have hrest : xs[i]? = some b := h
      simp only [List.set_cons_succ, List.flatMap_cons, List.append_assoc]
      exact (ih hrest).append_left _

end Places
