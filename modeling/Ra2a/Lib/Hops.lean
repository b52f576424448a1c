import Mathlib.Data.Set.Basic

/-!
# Hops

Something goes from hop to hop: `Hops R` is a relation `R` for each hop, one after the
other.  `Hops.mem_iff` is for what is seen of it, where each hop keeps some of what
there is and adds some: a thing is there at the end if it was there at the start or was
added by a hop, and every hop from there on has kept it.
-/

universe u v w

/-- One hop after the other. -/
inductive Hops {ι : Type u} {β : Type v} (R : ι → β → β → Prop) : List ι → β → β → Prop
  | nil (b : β) : Hops R [] b b
  | cons {i : ι} {is : List ι} {b b' b'' : β} (hop : R i b b') (rest : Hops R is b' b'') :
      Hops R (i :: is) b b''

namespace Hops

variable {ι : Type u} {β : Type v} {R : ι → β → β → Prop} {is : List ι} {b b' : β}

/-- **What there is at the end of all hops.** -/
theorem mem_iff {α : Type w} {I : β → Prop} {seen : β → Set α} {keeps adds : ι → Set α}
    (hinv : ∀ i b b', I b → R i b b' → I b')
    (hseen : ∀ i b b', I b → R i b b' →
      ∀ a, a ∈ seen b' ↔ (a ∈ seen b ∧ a ∈ keeps i) ∨ a ∈ adds i)
    (h : Hops R is b b') (hb : I b) (a : α) :
    a ∈ seen b' ↔ (a ∈ seen b ∧ ∀ i ∈ is, a ∈ keeps i) ∨
      ∃ before i after, is = before ++ i :: after ∧ a ∈ adds i ∧ ∀ j ∈ after, a ∈ keeps j := by
  induction h with
  | nil b =>
    constructor
    · intro ha
      exact Or.inl ⟨ha, fun i hi => by cases hi⟩
    · rintro (⟨ha, -⟩ | ⟨before, i, after, he, -⟩)
      · exact ha
      · cases before <;> cases he
  | @cons i is b b' b'' hop rest ih =>
    rw [ih (hinv i b b' hb hop), hseen i b b' hb hop a]
    constructor
    · rintro (⟨⟨ha, hkeep⟩ | hadd, hall⟩ | ⟨before, j, after, rfl, hadd, hall⟩)
      · exact Or.inl ⟨ha, List.forall_mem_cons.mpr ⟨hkeep, hall⟩⟩
      · exact Or.inr ⟨[], i, is, rfl, hadd, hall⟩
      · exact Or.inr ⟨i :: before, j, after, rfl, hadd, hall⟩
    · rintro (⟨ha, hall⟩ | ⟨before, j, after, he, hadd, hall⟩)
      · obtain ⟨hkeep, hall⟩ := List.forall_mem_cons.mp hall
        exact Or.inl ⟨Or.inl ⟨ha, hkeep⟩, hall⟩
      · cases before with
        | nil =>
          cases he
          exact Or.inl ⟨Or.inr hadd, hall⟩
        | cons k before =>
          cases he
          exact Or.inr ⟨before, j, after, rfl, hadd, hall⟩

end Hops
