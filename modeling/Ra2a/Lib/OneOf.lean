import Ra2a.Lib.SortedMap

/-!
# One member of several

A reader of records that are one of several alternatives.  Each alternative has a
name and a way to read its value; the reader takes the first alternative, in an
order of its own, whose name a record has a member of (`pick`).

A record is the list of its members as they are written.  Of several members of
one name the last counts.

A reader is strict about a record when it accepts it only with a single member
that names an alternative, and gives the same for the members in any order
(`Strict`).  `pick` is strict exactly about the records with no more than one such
member, and those whose leading alternative cannot be read at all
(`strict_pick_iff`).
-/

namespace OneOf

open SortedMap

universe u v w

variable {κ : Type u} {ν : Type v} {α : Type w} [LinearOrder κ]

/-- The members that name an alternative. -/
def named (names : List κ) (ms : List (κ × ν)) : List (κ × ν) := ms.filter fun e => e.1 ∈ names

/-- The reader accepts only one alternative and looks at no order. -/
structure Strict (names : List κ) (read : List (κ × ν) → Option α) (ms : List (κ × ν)) :
    Prop where
  one : (read ms).isSome → (named names ms).length = 1
  order : ∀ ms', ms'.Perm ms → read ms' = read ms

/-- The first alternative the members name. -/
def leader (alts : List (κ × (ν → Option α))) (ms : List (κ × ν)) :
    Option (κ × (ν → Option α)) :=
  alts.find? fun a => a.1 ∈ ms.map Prod.fst

def pick (alts : List (κ × (ν → Option α))) (ms : List (κ × ν)) : Option α :=
  (leader alts ms).bind fun a => (find a.1 ms).bind a.2

/-- The alternatives tried one after the other, by what `get` finds of their names. -/
def choose (get : κ → Option ν) : List (κ × (ν → Option α)) → Option α
  | [] => none
  | (k, read) :: alts =>
    match get k with
    | some v => read v
    | none => choose get alts

variable {names : List κ} {alts : List (κ × (ν → Option α))} {ms ms' : List (κ × ν)} {k : κ}
  {v : ν}

/-- A reader is strict about what it refuses in every order. -/
theorem strict_of_refused {read : List (κ × ν) → Option α}
    (h : ∀ ms', ms'.Perm ms → read ms' = none) : Strict names read ms where
  one hsome := by
    rw [h ms (List.Perm.refl ms)] at hsome
    cases hsome
  order ms' hperm := by rw [h ms' hperm, h ms (List.Perm.refl ms)]

/-! ### The last member of a name -/

theorem mem_of_find (h : find k ms = some v) : (k, v) ∈ ms := by
  induction ms using List.reverseRecOn with
  | nil => cases h
  | append_singleton ms e ih =>
    rw [find_append, find_singleton] at h
    by_cases hk : k = e.1
    · rw [if_pos hk, Option.some_or] at h
      have hv : e.2 = v := Option.some.inj h
      have he : e = (k, v) := Prod.ext hk.symm hv
      exact List.mem_append_right ms (List.mem_singleton.mpr he.symm)
    · rw [if_neg hk, Option.none_or] at h
      exact List.mem_append_left [e] (ih h)

theorem find_isSome_of_mem (h : k ∈ ms.map Prod.fst) : ∃ v, find k ms = some v := by
  induction ms using List.reverseRecOn with
  | nil => cases h
  | append_singleton ms e ih =>
    rw [find_append, find_singleton]
    by_cases hk : k = e.1
    · exact ⟨e.2, by rw [if_pos hk, Option.some_or]⟩
    · rw [if_neg hk, Option.none_or]
      refine ih ?_
      rw [List.map_append, List.mem_append] at h
      rcases h with h | h
      · exact h
      · exact absurd (List.mem_singleton.mp h) hk

theorem find_concat : find k (ms ++ [(k, v)]) = some v := by
  rw [find_append, find_singleton, if_pos rfl, Option.some_or]

omit [LinearOrder κ] in
/-- Any member can be written last. -/
theorem exists_perm_concat {e : κ × ν} (h : e ∈ ms) : ∃ rest, (rest ++ [e]).Perm ms := by
  obtain ⟨a, b, rfl⟩ := List.append_of_mem h
  refine ⟨a ++ b, ?_⟩
  rw [List.append_assoc]
  exact List.Perm.append_left a List.perm_append_comm

/-! ### Members that name an alternative -/

theorem mem_named {e : κ × ν} : e ∈ named names ms ↔ e ∈ ms ∧ e.1 ∈ names := by
  rw [named, List.mem_filter, decide_eq_true_eq]

theorem length_named_perm (h : ms'.Perm ms) :
    (named names ms').length = (named names ms).length :=
  (h.filter _).length_eq

/-- With no more than one of them there is no choice. -/
theorem eq_of_named {e f : κ × ν} (hle : (named names ms).length ≤ 1) (he : e ∈ named names ms)
    (hf : f ∈ named names ms) : e = f := by
  obtain hnil | ⟨x, hx⟩ := Nat.le_one_iff_eq_zero_or_eq_one.mp hle |>.imp
    List.length_eq_zero_iff.mp List.length_eq_one_iff.mp
  · rw [hnil] at he
    cases he
  · rw [hx, List.mem_singleton] at he hf
    rw [he, hf]

/-! ### The alternative that is taken -/

theorem leader_perm (h : ms'.Perm ms) : leader alts ms' = leader alts ms := by
  have hmem : ∀ k, k ∈ ms'.map Prod.fst ↔ k ∈ ms.map Prod.fst := fun k => (h.map _).mem_iff
  simp only [leader, hmem]

/-- The leading alternative has a member. -/
theorem of_leader {a : κ × (ν → Option α)} (h : leader alts ms = some a) :
    a ∈ alts ∧ a.1 ∈ ms.map Prod.fst := by
  have hmem := List.mem_of_find?_eq_some h
  have hp := List.find?_some h
  exact ⟨hmem, of_decide_eq_true hp⟩

theorem pick_of_leader {a : κ × (ν → Option α)} (h : leader alts ms = some a)
    (hv : find a.1 ms = some v) : pick alts ms = a.2 v := by
  rw [pick, h, Option.bind_some, hv, Option.bind_some]

/-- What is read is the value of a member that names an alternative. -/
theorem of_pick {r : α} (h : pick alts ms = some r) :
    ∃ a v, leader alts ms = some a ∧ (a.1, v) ∈ named (alts.map Prod.fst) ms ∧ a.2 v = some r := by
  obtain ⟨a, hl, h⟩ := Option.bind_eq_some_iff.mp h
  obtain ⟨v, hv, hr⟩ := Option.bind_eq_some_iff.mp h
  have ha : a.1 ∈ alts.map Prod.fst := List.mem_map_of_mem (of_leader hl).1
  exact ⟨a, v, hl, mem_named.mpr ⟨mem_of_find hv, ha⟩, hr⟩

theorem find_eq_none (h : k ∉ ms.map Prod.fst) : find k ms = none := by
  by_contra hsome
  obtain ⟨v, hv⟩ := Option.ne_none_iff_exists'.mp hsome
  exact h (List.mem_map_of_mem (mem_of_find hv))

theorem choose_find : choose (fun k => find k ms) alts = pick alts ms := by
  induction alts with
  | nil => rfl
  | cons a alts ih =>
    obtain ⟨k, read⟩ := a
    by_cases hk : k ∈ ms.map Prod.fst
    · obtain ⟨v, hv⟩ := find_isSome_of_mem hk
      have hl : leader ((k, read) :: alts) ms = some (k, read) :=
        List.find?_cons_of_pos (decide_eq_true hk)
      rw [pick_of_leader hl hv, choose, hv]
    · have hl : leader ((k, read) :: alts) ms = leader alts ms :=
        List.find?_cons_of_neg (by rw [decide_eq_true_eq]; exact hk)
      rw [choose, find_eq_none hk, pick, hl]
      exact ih

/-- The alternatives tried on the map the members are collected to. -/
theorem choose_lookup : choose (fun k => (ofEntries ms).lookup k) alts = pick alts ms := by
  simp only [lookup_ofEntries]
  exact choose_find

/-- A record that names one alternative is read in any order. -/
theorem pick_perm {r : α} (hle : (named (alts.map Prod.fst) ms).length ≤ 1) (hperm : ms'.Perm ms)
    (h : pick alts ms = some r) : pick alts ms' = some r := by
  obtain ⟨a, v, hl, hmem, hv⟩ := of_pick h
  have hl' : leader alts ms' = some a := (leader_perm hperm).trans hl
  obtain ⟨w, hw⟩ := find_isSome_of_mem (of_leader hl').2
  have hmem' : (a.1, w) ∈ named (alts.map Prod.fst) ms :=
    mem_named.mpr ⟨hperm.mem_iff.mp (mem_of_find hw), (mem_named.mp hmem).2⟩
  have hwv : w = v := congrArg Prod.snd (eq_of_named hle hmem' hmem)
  rw [pick_of_leader hl' hw, hwv]
  exact hv

/-- A record names no more than one alternative, or nothing written under the
leading one can be read. -/
def Single (alts : List (κ × (ν → Option α))) (ms : List (κ × ν)) : Prop :=
  (named (alts.map Prod.fst) ms).length ≤ 1 ∨
    ∀ a v, leader alts ms = some a → (a.1, v) ∈ ms → a.2 v = none

/-- **The reader is strict exactly about such records.** -/
theorem strict_pick_iff : Strict (alts.map Prod.fst) (pick alts) ms ↔ Single alts ms := by
  constructor
  · intro h
    by_contra hcon
    rw [Single, not_or] at hcon
    obtain ⟨hmany, hread⟩ := hcon
    push Not at hread
    obtain ⟨a, v, hl, hmem, hv⟩ := hread
    -- written last, the member that can be read is the one that is read
    obtain ⟨rest, hperm⟩ := exists_perm_concat hmem
    have hpick : pick alts (rest ++ [(a.1, v)]) = a.2 v :=
      pick_of_leader ((leader_perm hperm).trans hl) find_concat
    have hsome : (pick alts ms).isSome := by
      rw [← h.order _ hperm, hpick]
      exact Option.isSome_iff_ne_none.mpr hv
    have hone := h.one hsome
    omega
  · rintro (hle | hnone)
    · constructor
      · intro hsome
        obtain ⟨r, hr⟩ := Option.isSome_iff_exists.mp hsome
        obtain ⟨a, v, -, hmem, -⟩ := of_pick hr
        have hpos := List.length_pos_of_mem hmem
        omega
      · intro ms' hperm
        have hle' : (named (alts.map Prod.fst) ms').length ≤ 1 := by
          rw [length_named_perm hperm]
          exact hle
        exact Option.ext fun r => ⟨pick_perm hle' hperm.symm, pick_perm hle hperm⟩
    · refine strict_of_refused fun ms' hperm => ?_
      by_contra hsome
      obtain ⟨r, hr⟩ := Option.ne_none_iff_exists'.mp hsome
      obtain ⟨a, v, hl, hmem, hv⟩ := of_pick hr
      rw [leader_perm hperm] at hl
      rw [hnone a v hl (hperm.mem_iff.mp (mem_named.mp hmem).1)] at hv
      cases hv

end OneOf
