import Mathlib.Data.List.Induction
import Ra2a.Lib.Places

/-!
# A ledger of changes to a keyed store

A change puts an entry under a key or removes what is there.  A ledger is the
list of the changes made, in order, and `current` is what it leaves under a key.

What stands under a key is the last entry put there, and nothing has changed
there since (`current_eq_some_iff`).  Where entries are tagged and no two carry
the same tag, an entry that is recognised by its tag is that very entry: a
reader who finds the tag it knows under a key may conclude that nothing was
changed there in the meantime (`unchanged_of_tag`).
-/

namespace Ledger

open Places

universe u v w

inductive Change (κ : Type u) (α : Type v)
  | put (k : κ) (a : α)
  | remove (k : κ)

variable {κ : Type u} {α : Type v}

def Change.key : Change κ α → κ
  | .put k _ => k
  | .remove k => k

@[simp] theorem Change.key_put (k : κ) (a : α) : (Change.put k a).key = k := rfl

@[simp] theorem Change.key_remove (k : κ) : (Change.remove k : Change κ α).key = k := rfl

/-- What a change leaves under its own key. -/
def Change.left : Change κ α → Option α
  | .put _ a => some a
  | .remove _ => none

variable {log : List (Change κ α)} {k l : κ} {a b : α} {c : Change κ α} {p : ℕ}

section Current

variable [DecidableEq κ]

/-- What a ledger leaves under a key. -/
def current (log : List (Change κ α)) (k : κ) : Option α :=
  log.foldl (fun r c => if c.key = k then c.left else r) none

@[simp] theorem current_nil : current ([] : List (Change κ α)) k = none := rfl

theorem current_concat : current (log ++ [c]) k = if c.key = k then c.left else current log k := by
  rw [current, List.foldl_append]
  rfl

/-- **What stands under a key was put there, and nothing has changed since.** -/
theorem current_eq_some_iff :
    current log k = some a ↔ ∃ p : ℕ, log[p]? = some (Change.put k a) ∧
      ∀ (q : ℕ) (c : Change κ α), p < q → log[q]? = some c → c.key ≠ k := by
  induction log using List.reverseRecOn with
  | nil => simp
  | append_singleton log c ih =>
    rw [current_concat]
    constructor
    · intro h
      by_cases hk : c.key = k
      · rw [if_pos hk] at h
        cases c with
        | remove l => cases h
        | put l b =>
          obtain rfl : l = k := hk
          obtain rfl : b = a := Option.some.inj h
          refine ⟨log.length, List.getElem?_concat_length, fun q d hq hd => ?_⟩
          have hlen := (List.getElem?_eq_some_iff.mp hd).1
          rw [List.length_append, List.length_singleton] at hlen
          omega
      · rw [if_neg hk] at h
        obtain ⟨p, hp, hlast⟩ := ih.mp h
        refine ⟨p, getElem?_append_of_some hp, fun q d hq hd => ?_⟩
        rcases getElem?_concat_cases hd with hd | ⟨-, rfl⟩
        · exact hlast q d hq hd
        · exact hk
    · rintro ⟨p, hp, hlast⟩
      rcases getElem?_concat_cases hp with hp | ⟨rfl, rfl⟩
      · have hlen : p < log.length := (List.getElem?_eq_some_iff.mp hp).1
        have hk : c.key ≠ k := hlast log.length c hlen List.getElem?_concat_length
        rw [if_neg hk, ih]
        exact ⟨p, hp, fun q d hq hd => hlast q d hq (getElem?_append_of_some hd)⟩
      · exact if_pos rfl

theorem exists_of_current (h : current log k = some a) : ∃ p : ℕ, log[p]? = some (.put k a) := by
  obtain ⟨p, hp, -⟩ := current_eq_some_iff.mp h
  exact ⟨p, hp⟩

end Current

/-- No two entries of the ledger carry the same tag. -/
def TagsDistinct {τ : Type w} (tag : α → τ) (log : List (Change κ α)) : Prop :=
  ∀ (p q : ℕ) (k l : κ) (a b : α), log[p]? = some (.put k a) → log[q]? = some (.put l b) →
    tag a = tag b → p = q

variable {τ : Type w} {tag : α → τ}

theorem tagsDistinct_nil : TagsDistinct tag ([] : List (Change κ α)) := by
  intro p q k l a b h
  cases h

theorem tagsDistinct_remove (h : TagsDistinct tag log) : TagsDistinct tag (log ++ [.remove l]) := by
  have hput : ∀ (p : ℕ) (k : κ) (a : α), (log ++ [.remove l])[p]? = some (.put k a) →
      log[p]? = some (.put k a) := by
    intro p k a hp
    rcases getElem?_concat_cases hp with hp | ⟨-, hp⟩
    · exact hp
    · cases hp
  intro p q k l a b hp hq
  exact h p q k l a b (hput p k a hp) (hput q l b hq)

/-- An entry with a tag of its own may be put. -/
theorem tagsDistinct_put (h : TagsDistinct tag log)
    (hb : ∀ (p : ℕ) (k : κ) (a : α), log[p]? = some (.put k a) → tag a ≠ tag b) :
    TagsDistinct tag (log ++ [.put l b]) := by
  intro p q k m a c hp hq htag
  rcases getElem?_concat_cases hp with hp | ⟨hplen, hpa⟩
  · rcases getElem?_concat_cases hq with hq | ⟨-, hqc⟩
    · exact h p q k m a c hp hq htag
    · cases hqc
      exact absurd htag (hb p k a hp)
  · cases hpa
    rcases getElem?_concat_cases hq with hq | ⟨hqlen, -⟩
    · exact absurd htag.symm (hb q m c hq)
    · rw [hplen, hqlen]

/-- **An entry known by its tag is the very entry**, and nothing has changed
under its key since it was put. -/
theorem unchanged_of_tag [DecidableEq κ] (h : TagsDistinct tag log)
    (hp : log[p]? = some (.put k a)) (hb : current log l = some b) (htag : tag a = tag b) :
    k = l ∧ a = b ∧
      ∀ (q : ℕ) (c : Change κ α), p < q → log[q]? = some c → c.key ≠ k := by
  obtain ⟨r, hr, hlast⟩ := current_eq_some_iff.mp hb
  obtain rfl := h p r k l a b hp hr htag
  rw [hp] at hr
  cases hr
  exact ⟨rfl, rfl, hlast⟩

end Ledger
