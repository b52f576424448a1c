import Mathlib.Data.Finmap

/-!
# Maps whose values know their key

What a map holds under a key after an insertion or an erasure, in one equation
each.  Where every value has a key of its own and stands under it, an insertion
under that key and any erasure leave it so.
-/

namespace Keyed

universe u v

variable {κ : Type u} {α : Type v} [DecidableEq κ] {m : Finmap fun _ : κ => α}

theorem lookup_insert (k l : κ) (a : α) :
    (m.insert k a).lookup l = if k = l then some a else m.lookup l := by
  by_cases h : k = l
  · subst h
    rw [Finmap.lookup_insert, if_pos rfl]
  · rw [Finmap.lookup_insert_of_ne _ (Ne.symm h), if_neg h]

theorem lookup_erase (k l : κ) :
    (m.erase k).lookup l = if k = l then none else m.lookup l := by
  by_cases h : k = l
  · subst h
    rw [Finmap.lookup_erase, if_pos rfl]
  · rw [Finmap.lookup_erase_ne (Ne.symm h), if_neg h]

/-- The values of a map, in no order. -/
def values (m : Finmap fun _ : κ => α) : Multiset α := m.entries.map Sigma.snd

theorem mem_values_iff {a : α} : a ∈ values m ↔ ∃ k, m.lookup k = some a := by
  rw [values, Multiset.mem_map]
  constructor
  · rintro ⟨⟨k, b⟩, hmem, rfl⟩
    exact ⟨k, Finmap.lookup_eq_some_iff.mpr hmem⟩
  · rintro ⟨k, hk⟩
    exact ⟨⟨k, a⟩, Finmap.lookup_eq_some_iff.mp hk, rfl⟩

/-- Values that tell their keys apart are apart. -/
theorem nodup_map_values {β : Type*} {f : α → β} {g : κ → β} (hg : Function.Injective g)
    (h : ∀ k a, m.lookup k = some a → f a = g k) : ((values m).map f).Nodup := by
  have hkeys : (values m).map f = m.keys.val.map g := by
    change (m.entries.map Sigma.snd).map f = (m.entries.map Sigma.fst).map g
    rw [Multiset.map_map, Multiset.map_map]
    exact Multiset.map_congr rfl fun e he => h e.1 e.2 (Finmap.lookup_eq_some_iff.mpr he)
  rw [hkeys]
  exact m.keys.nodup.map hg

/-- Every value stands under its own key. -/
def OwnKeys (key : α → κ) (m : Finmap fun _ : κ => α) : Prop :=
  ∀ k a, m.lookup k = some a → key a = k

namespace OwnKeys

variable {key : α → κ}

theorem insert (h : OwnKeys key m) (a : α) : OwnKeys key (m.insert (key a) a) := by
  intro k b hb
  rw [lookup_insert] at hb
  split at hb
  · rename_i hk
    rw [← Option.some.inj hb, hk]
  · exact h k b hb

theorem erase (h : OwnKeys key m) (l : κ) : OwnKeys key (m.erase l) := by
  intro k b hb
  rw [lookup_erase] at hb
  split at hb
  · cases hb
  · exact h k b hb

/-- The values can be listed, each once. -/
theorem exists_list (h : OwnKeys key m) :
    ∃ l : List α, l.Nodup ∧ ∀ a, a ∈ l ↔ m.lookup (key a) = some a := by
  obtain ⟨l, hl⟩ : ∃ l : List α, (l : Multiset α) = values m := Quot.exists_rep _
  have hmem : ∀ a, a ∈ l ↔ a ∈ values m := by
    intro a
    rw [← hl, Multiset.mem_coe]
  refine ⟨l, ?_, fun a => ?_⟩
  · have hkeys : ((values m).map key).Nodup := nodup_map_values Function.injective_id h
    rw [← Multiset.coe_nodup, hl]
    exact hkeys.of_map
  · rw [hmem, mem_values_iff]
    constructor
    · rintro ⟨k, hk⟩
      rwa [h k a hk]
    · exact fun ha => ⟨key a, ha⟩

end OwnKeys

end Keyed
