import Mathlib.Data.List.Induction
import Mathlib.Data.List.Nodup

/-!
# Lists of keyed entries under updates

An `Update` is for one key: it edits the first entry with this key, or, where
there is none, may put a fresh entry at the end.  What is found under a key
after a run of updates is what the updates for this key make of what was found
there (`find?_applyAll`), and the keys stand in the order in which they came
first (`map_applyAll`).  Together they say what the list is, where its keys
are distinct (`eq_of_find?`).
-/

namespace KeyedList

universe u v

variable {α : Type u} {κ : Type v} [DecidableEq κ] {key : α → κ}

structure Update (key : α → κ) where
  target : κ
  edit : α → α
  fresh : Option α
  key_edit : ∀ a, key a = target → key (edit a) = target
  key_fresh : ∀ a, fresh = some a → key a = target

namespace Update

/-- The list after an update. -/
def apply (u : Update key) : List α → List α
  | [] => u.fresh.toList
  | a :: l => if key a = u.target then u.edit a :: l else a :: u.apply l

/-- What an update makes of the entry under its key. -/
def entry (u : Update key) : Option α → Option α
  | some a => some (u.edit a)
  | none => u.fresh

variable (u : Update key)

/-- An update that looks for the place first. -/
theorem apply_eq_findIdx? (l : List α) :
    u.apply l =
      match l.findIdx? fun a => decide (key a = u.target) with
      | some i => l.modify i u.edit
      | none => l ++ u.fresh.toList := by
  induction l with
  | nil => rfl
  | cons a l ih =>
    rw [apply, List.findIdx?_cons]
    by_cases ha : key a = u.target
    · simp [ha]
    · rw [if_neg ha, ih]
      cases l.findIdx? fun a => decide (key a = u.target) with
      | none => simp [ha]
      | some i => simp [ha]

theorem find?_apply (l : List α) (k : κ) :
    (u.apply l).find? (fun a => decide (key a = k)) =
      if u.target = k then u.entry (l.find? fun a => decide (key a = k))
      else l.find? fun a => decide (key a = k) := by
  induction l with
  | nil =>
    rw [apply, List.find?_nil]
    cases hf : u.fresh with
    | none => split <;> simp [entry, hf]
    | some a =>
      have ha := u.key_fresh a hf
      by_cases hk : u.target = k
      · simp [entry, hf, ha, hk]
      · simp [ha, hk]
  | cons a l ih =>
    rw [apply]
    by_cases ha : key a = u.target
    · have he := u.key_edit a ha
      rw [if_pos ha]
      by_cases hk : u.target = k
      · simp [entry, he, ha, hk]
      · simp [he, ha, hk]
    · rw [if_neg ha, List.find?_cons, List.find?_cons, ih]
      by_cases hk : key a = k
      · have hne : u.target ≠ k := fun h => ha (hk.trans h.symm)
        simp [hk, hne]
      · simp [hk]

theorem map_apply (l : List α) :
    (u.apply l).map key =
      if u.fresh.isSome ∧ u.target ∉ l.map key then l.map key ++ [u.target] else l.map key := by
  induction l with
  | nil =>
    rw [apply]
    cases hf : u.fresh with
    | none => simp
    | some a => simp [u.key_fresh a hf]
  | cons a l ih =>
    rw [apply]
    by_cases ha : key a = u.target
    · simp [ha, u.key_edit a ha]
    · have hne : u.target ≠ key a := Ne.symm ha
      rw [if_neg ha, List.map_cons, ih]
      simp only [List.map_cons, List.mem_cons, hne, false_or]
      split <;> rfl

/-- An update for a key that is not there. -/
theorem apply_of_notMem {l : List α} (h : u.target ∉ l.map key) :
    u.apply l = l ++ u.fresh.toList := by
  induction l with
  | nil => rfl
  | cons a l ih =>
    rw [List.map_cons, List.mem_cons, not_or] at h
    rw [apply, if_neg (Ne.symm h.1), ih h.2, List.cons_append]

/-- Updates for two keys, one of which is there, come in either order. -/
theorem apply_comm {w : Update key} {l : List α} (hne : u.target ≠ w.target)
    (h : u.target ∈ l.map key) : u.apply (w.apply l) = w.apply (u.apply l) := by
  induction l with
  | nil => cases h
  | cons a l ih =>
    by_cases hu : key a = u.target
    · have hw : key a ≠ w.target := fun h => hne (hu.symm.trans h)
      have hw' : key (u.edit a) ≠ w.target := by
        rw [u.key_edit a hu]
        exact hne
      simp only [apply, if_neg hw, if_pos hu, if_neg hw']
    · by_cases hw : key a = w.target
      · have hu' : key (w.edit a) ≠ u.target := by
          rw [w.key_edit a hw]
          exact Ne.symm hne
        simp only [apply, if_pos hw, if_neg hu, if_neg hu']
      · have hl : u.target ∈ l.map key := (List.mem_cons.mp h).resolve_left (Ne.symm hu)
        simp only [apply, if_neg hw, if_neg hu, ih hl]

end Update

/-! ### Runs of updates -/

/-- The list after a run of updates. -/
def applyAll (us : List (Update key)) (l : List α) : List α := us.foldl (fun l u => u.apply l) l

@[simp] theorem applyAll_nil (l : List α) : applyAll ([] : List (Update key)) l = l := rfl

@[simp] theorem applyAll_cons (u : Update key) (us : List (Update key)) (l : List α) :
    applyAll (u :: us) l = applyAll us (u.apply l) := rfl

theorem applyAll_concat (u : Update key) (us : List (Update key)) (l : List α) :
    applyAll (us ++ [u]) l = u.apply (applyAll us l) := by
  rw [applyAll, List.foldl_append]
  rfl

/-- **What is found under a key is made by the updates for this key alone.** -/
theorem find?_applyAll (us : List (Update key)) (l : List α) (k : κ) :
    (applyAll us l).find? (fun a => decide (key a = k)) =
      (us.filter fun u => decide (u.target = k)).foldl (fun o u => u.entry o)
        (l.find? fun a => decide (key a = k)) := by
  induction us generalizing l with
  | nil => rfl
  | cons u us ih =>
    rw [applyAll_cons, ih, u.find?_apply]
    by_cases hu : u.target = k
    · simp [hu]
    · simp [hu]

section

variable {ks : List κ}

theorem eraseDups_concat (k : κ) :
    (ks ++ [k]).eraseDups = if k ∈ ks then ks.eraseDups else ks.eraseDups ++ [k] := by
  rw [List.eraseDups_append]
  by_cases hk : k ∈ ks
  · simp [List.removeAll, hk]
  · simp [List.removeAll, hk, List.eraseDups_cons]

theorem nodup_eraseDups : ks.eraseDups.Nodup := by
  induction ks using List.reverseRecOn with
  | nil => exact List.nodup_nil
  | append_singleton ks k ih =>
    rw [eraseDups_concat]
    split
    · exact ih
    · rename_i hk
      refine List.nodup_append.mpr ⟨ih, List.nodup_singleton k, fun a ha b hb => ?_⟩
      rintro rfl
      rw [List.mem_singleton] at hb
      exact hk (hb ▸ List.mem_eraseDups.mp ha)

theorem eraseDups_of_nodup (h : ks.Nodup) : ks.eraseDups = ks := by
  induction ks using List.reverseRecOn with
  | nil => rfl
  | append_singleton ks k ih =>
    obtain ⟨hks, -, hne⟩ := List.nodup_append.mp h
    have hk : k ∉ ks := fun hmem => hne k hmem k (List.mem_singleton.mpr rfl) rfl
    rw [eraseDups_concat, if_neg hk, ih hks]

end

/-- **The keys stand in the order in which they came first.** -/
theorem map_applyAll (us : List (Update key)) {l : List α} (h : (l.map key).Nodup) :
    (applyAll us l).map key =
      (l.map key ++ (us.filter fun u => u.fresh.isSome).map Update.target).eraseDups := by
  induction us using List.reverseRecOn with
  | nil => simp [eraseDups_of_nodup h]
  | append_singleton us u ih =>
    rw [applyAll_concat, u.map_apply, ih]
    by_cases hf : u.fresh.isSome
    · simp only [List.filter_append, List.filter_cons, hf, List.filter_nil, if_true,
        List.map_append, List.map_cons, List.map_nil]
      rw [← List.append_assoc, eraseDups_concat]
      simp only [List.mem_eraseDups, true_and, ite_not]
    · simp [hf]

/-- Updates for keys that are there leave the keys as they are. -/
theorem map_applyAll_of_mem (us : List (Update key)) {l : List α}
    (h : ∀ u ∈ us, u.target ∈ l.map key) : (applyAll us l).map key = l.map key := by
  induction us generalizing l with
  | nil => rfl
  | cons u us ih =>
    have hkeys : (u.apply l).map key = l.map key := by
      rw [u.map_apply, if_neg]
      exact fun hu => hu.2 (h u List.mem_cons_self)
    rw [applyAll_cons, ih, hkeys]
    rw [hkeys]
    exact fun w hw => h w (List.mem_cons_of_mem u hw)

/-- A list with distinct keys is known by its keys and by what is found under each. -/
theorem eq_of_find? {l l' : List α} (h : (l.map key).Nodup) (hkeys : l.map key = l'.map key)
    (hfind : ∀ k, l.find? (fun a => decide (key a = k)) = l'.find? fun a => decide (key a = k)) :
    l = l' := by
  induction l generalizing l' with
  | nil => exact (List.map_eq_nil_iff.mp hkeys.symm).symm
  | cons a l ih =>
    cases l' with
    | nil => cases hkeys
    | cons b l' =>
      obtain ⟨hab, htail⟩ := List.cons.inj hkeys
      obtain ⟨hnotin, hl⟩ := List.nodup_cons.mp h
      have hfirst := hfind (key a)
      rw [List.find?_cons_of_pos (by simp), List.find?_cons_of_pos (by simp [hab])] at hfirst
      cases hfirst
      refine congrArg (a :: ·) (ih hl htail fun k => ?_)
      by_cases hk : key a = k
      · have hnone : ∀ {m : List α}, m.map key = l.map key →
            m.find? (fun a => decide (key a = k)) = none := by
          intro m hm
          rw [List.find?_eq_none]
          intro c hc hck
          refine hnotin ?_
          rw [hk, ← hm, ← of_decide_eq_true hck]
          exact List.mem_map_of_mem hc
        rw [hnone rfl, hnone htail.symm]
      · have hrest := hfind k
        rwa [List.find?_cons_of_neg (by simp [hk]), List.find?_cons_of_neg (by simp [hk])] at hrest

end KeyedList
