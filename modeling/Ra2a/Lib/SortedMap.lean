import Mathlib.Data.Finset.Sort
import Mathlib.Data.List.Induction
import Mathlib.Data.List.Sort
import Ra2a.Lib.Keyed

/-!
# Maps as sorted lists

A map held as the list of its entries in the order of their keys.  An entry that
is inserted replaces the one of its key or goes to its place, so that of several
entries of one key the last is kept (`lookup_ofEntries`).

`entriesOf` is the other way: the entries of a finite map in the order of their
keys.  Inserting them one by one into the empty map gives the map back
(`foldl_insert_entriesOf`).
-/

namespace SortedMap

universe u v

variable {κ : Type u} {α : Type v} [LinearOrder κ]

def put (k : κ) (a : α) : List (κ × α) → List (κ × α)
  | [] => [(k, a)]
  | (l, b) :: rest =>
    if k < l then (k, a) :: (l, b) :: rest
    else if k = l then (k, a) :: rest
    else (l, b) :: put k a rest

/-- The map that entries are collected to. -/
def ofEntries (es : List (κ × α)) : List (κ × α) :=
  es.foldl (fun m e => put e.1 e.2 m) []

variable {k l : κ} {a : α} {es fs m : List (κ × α)}

@[simp] theorem put_nil : put k a [] = [(k, a)] := rfl

theorem put_cons_of_lt {b : α} (h : k < l) : put k a ((l, b) :: m) = (k, a) :: (l, b) :: m :=
  if_pos h

theorem put_cons_of_gt {b : α} (h : l < k) : put k a ((l, b) :: m) = (l, b) :: put k a m := by
  rw [put, if_neg h.not_gt, if_neg h.ne']

theorem lookup_cons_eq : ((l, a) :: m).lookup k = if k = l then some a else m.lookup k := by
  rw [List.lookup_cons]
  by_cases h : k = l
  · rw [if_pos h, beq_iff_eq.mpr h]
  · rw [if_neg h, beq_eq_false_iff_ne.mpr h]

theorem lookup_put : (put k a m).lookup l = if l = k then some a else m.lookup l := by
  induction m with
  | nil =>
    rw [put, lookup_cons_eq]
  | cons e rest ih =>
    obtain ⟨x, b⟩ := e
    rw [put]
    split
    · rw [lookup_cons_eq]
    · split
      · rename_i hkx
        rw [lookup_cons_eq, lookup_cons_eq, hkx]
        by_cases h : l = x <;> simp [h]
      · rename_i hkx
        rw [lookup_cons_eq, lookup_cons_eq, ih]
        by_cases h : l = x
        · simp [h, Ne.symm hkx]
        · simp [h]

/-- The last entry of a key. -/
def find (k : κ) (es : List (κ × α)) : Option α := es.reverse.lookup k

@[simp] theorem find_nil : find k ([] : List (κ × α)) = none := rfl

@[simp] theorem find_append : find k (es ++ fs) = (find k fs).or (find k es) := by
  rw [find, List.reverse_append, List.lookup_append]
  rfl

@[simp] theorem find_singleton : find k [(l, a)] = if k = l then some a else none := by
  rw [find, List.reverse_singleton, lookup_cons_eq, List.lookup_nil]

/-- **Of several entries of one key the last is kept.** -/
theorem lookup_ofEntries : (ofEntries es).lookup k = find k es := by
  induction es using List.reverseRecOn with
  | nil => rfl
  | append_singleton es e ih =>
    rw [ofEntries, List.foldl_append, List.foldl_cons, List.foldl_nil, lookup_put, find_append,
      find_singleton]
    by_cases h : k = e.1
    · rw [if_pos h, if_pos h]
      rfl
    · rw [if_neg h, if_neg h]
      exact ih

/-! ### The entries of a finite map -/

/-- The entries of a map in the order of their keys. -/
def entriesOf (m : Finmap fun _ : κ => α) : List (κ × α) :=
  m.keys.sort.filterMap fun k => (m.lookup k).map (Prod.mk k)

variable {m : Finmap fun _ : κ => α}

/-- What a map holds after entries are inserted one by one. -/
theorem lookup_foldl_insert (es : List (κ × α)) :
    (es.foldl (fun (m : Finmap fun _ : κ => α) e => m.insert e.1 e.2) ∅).lookup k = find k es := by
  induction es using List.reverseRecOn with
  | nil => rfl
  | append_singleton es e ih =>
    rw [List.foldl_append, List.foldl_cons, List.foldl_nil, find_append, find_singleton]
    rw [Keyed.lookup_insert, ih]
    by_cases h : k = e.1
    · rw [if_pos h, if_pos h.symm]
      rfl
    · rw [if_neg h, if_neg (Ne.symm h)]
      rfl

theorem find_map {β : Type v} {f : α → β} {es : List (κ × α)} :
    find k (es.map fun e => (e.1, f e.2)) = (find k es).map f := by
  induction es using List.reverseRecOn with
  | nil => rfl
  | append_singleton es e ih =>
    rw [List.map_append, List.map_singleton, find_append, find_append, find_singleton,
      find_singleton, ih]
    by_cases h : k = e.1
    · rw [if_pos h, if_pos h]
      rfl
    · rw [if_neg h, if_neg h]
      rfl

theorem find_filterMap (ks : List κ) :
    find k (ks.filterMap fun k => (m.lookup k).map (Prod.mk k)) =
      if k ∈ ks then m.lookup k else none := by
  induction ks using List.reverseRecOn with
  | nil => rfl
  | append_singleton ks l ih =>
    rw [List.filterMap_append, find_append, ih]
    cases hl : m.lookup l with
    | none =>
      rw [List.filterMap_cons_none (by rw [hl]; rfl), List.filterMap_nil, find_nil, Option.none_or]
      by_cases h : k = l
      · subst h
        simp [hl]
      · simp [h]
    | some a =>
      rw [List.filterMap_cons_some (by rw [hl]; rfl), List.filterMap_nil, find_singleton]
      by_cases h : k = l
      · subst h
        simp [hl]
      · simp [h]

theorem find_entriesOf : find k (entriesOf m) = m.lookup k := by
  rw [entriesOf, find_filterMap]
  by_cases h : k ∈ m.keys.sort
  · rw [if_pos h]
  · rw [if_neg h]
    rw [Finset.mem_sort, Finmap.mem_keys] at h
    exact (Finmap.lookup_eq_none.mpr h).symm

/-- **The entries of a map make the map.** -/
theorem foldl_insert_entriesOf :
    (entriesOf m).foldl (fun (m : Finmap fun _ : κ => α) e => m.insert e.1 e.2) ∅ = m := by
  refine Finmap.ext_lookup fun k => ?_
  rw [lookup_foldl_insert, find_entriesOf]

theorem entriesOf_eq_nil_iff : entriesOf m = [] ↔ m = ∅ := by
  constructor
  · intro h
    rw [← @foldl_insert_entriesOf _ _ _ m, h]
    rfl
  · rintro rfl
    rw [entriesOf, Finmap.keys_empty, Finset.sort_empty, List.filterMap_nil]

theorem mem_entriesOf {e : κ × α} : e ∈ entriesOf m ↔ m.lookup e.1 = some e.2 := by
  rw [entriesOf, List.mem_filterMap]
  constructor
  · rintro ⟨k, -, hk⟩
    obtain ⟨a, ha, rfl⟩ := Option.map_eq_some_iff.mp hk
    exact ha
  · intro h
    have hkey : e.1 ∈ m := Finmap.mem_of_lookup_eq_some h
    exact ⟨e.1, (Finset.mem_sort _).mpr (Finmap.mem_keys.mpr hkey), by rw [h]; rfl⟩

theorem mem_of_find {es : List (κ × α)} (h : find k es = some a) : (k, a) ∈ es := by
  obtain ⟨fs, gs, hes, -⟩ := List.lookup_eq_some_iff.mp h
  exact List.mem_reverse.mp (hes ▸ List.mem_append_right fs List.mem_cons_self)

/-! ### Other keys -/

/-- A list of the entries of a map, each once: an order in which they may come. -/
structure Enumerates (es : List (κ × α)) (m : Finmap fun _ : κ => α) : Prop where
  nodup : es.Nodup
  mem_iff : ∀ k a, (k, a) ∈ es ↔ m.lookup k = some a

theorem enumerates_entriesOf : Enumerates (entriesOf m) m where
  nodup := by
    refine List.Nodup.filterMap (fun k k' e he he' => ?_) (Finset.sort_nodup _ _)
    obtain ⟨a, -, rfl⟩ := Option.map_eq_some_iff.mp he
    obtain ⟨a', -, he'⟩ := Option.map_eq_some_iff.mp he'
    exact (congrArg Prod.fst he').symm
  mem_iff _ _ := mem_entriesOf

/-- Any of the entries may come last. -/
theorem Enumerates.last (h : Enumerates es m) (hk : m.lookup k = some a) :
    ∃ fs, Enumerates (fs ++ [(k, a)]) m := by
  obtain ⟨fs, gs, rfl⟩ := List.append_of_mem ((h.mem_iff k a).mpr hk)
  have hperm : ((fs ++ gs) ++ [(k, a)]).Perm (fs ++ (k, a) :: gs) := by
    rw [List.append_assoc]
    exact (List.perm_append_singleton (k, a) gs).append_left fs
  exact ⟨fs ++ gs, hperm.nodup_iff.mpr h.nodup, fun l b => hperm.mem_iff.trans (h.mem_iff l b)⟩

/-- The map of entries whose keys are changed. -/
def rekey (f : κ → κ) (es : List (κ × α)) : Finmap fun _ : κ => α :=
  (es.map fun e => (f e.1, e.2)).foldl (fun m e => m.insert e.1 e.2) ∅

variable {f : κ → κ}

theorem find_isSome {es : List (κ × α)} (h : (k, a) ∈ es) : ∃ b, find k es = some b := by
  cases hf : find k es with
  | some b => exact ⟨b, rfl⟩
  | none =>
    rw [find, List.lookup_eq_none_iff] at hf
    have hk := hf _ (List.mem_reverse.mpr h)
    simp at hk

/-- What stands under a key is the value of an entry that has come to it. -/
theorem lookup_rekey (h : (rekey f es).lookup l = some a) : ∃ k, f k = l ∧ (k, a) ∈ es := by
  rw [rekey, lookup_foldl_insert] at h
  obtain ⟨⟨k, b⟩, hmem, he⟩ := List.mem_map.mp (mem_of_find h)
  cases he
  exact ⟨k, rfl, hmem⟩

theorem lookup_rekey_isSome (h : (k, a) ∈ es) : ∃ b, (rekey f es).lookup (f k) = some b := by
  rw [rekey, lookup_foldl_insert]
  exact find_isSome (List.mem_map.mpr ⟨(k, a), h, rfl⟩)

/-- An entry that comes last is kept. -/
theorem lookup_rekey_concat : (rekey f (es ++ [(k, a)])).lookup (f k) = some a := by
  rw [rekey, lookup_foldl_insert, List.map_append, List.map_singleton, find_append, find_singleton,
    if_pos rfl, Option.some_or]

/-- Entries that come to one key have the same value. -/
def Agree (f : κ → κ) (m : Finmap fun _ : κ => α) : Prop :=
  ∀ k l a b, m.lookup k = some a → m.lookup l = some b → f k = f l → a = b

/-- Where the entries agree all their values are kept. -/
theorem Agree.lookup_rekey (hm : Agree f m) (h : Enumerates es m) (hk : m.lookup k = some a) :
    (rekey f es).lookup (f k) = some a := by
  obtain ⟨b, hb⟩ := lookup_rekey_isSome (f := f) ((h.mem_iff k a).mpr hk)
  obtain ⟨l, hl, hmem⟩ := SortedMap.lookup_rekey hb
  rw [hb, hm k l a b hk ((h.mem_iff l b).mp hmem) hl.symm]

/-- **The order does not matter exactly if entries that come to one key agree.** -/
theorem rekey_eq_iff :
    (∀ es fs, Enumerates es m → Enumerates fs m → rekey f es = rekey f fs) ↔ Agree f m := by
  constructor
  · intro h k l a b hk hl hkl
    obtain ⟨es, hes⟩ := enumerates_entriesOf.last hk
    obtain ⟨fs, hfs⟩ := enumerates_entriesOf.last hl
    have hlast : (rekey f (es ++ [(k, a)])).lookup (f k) = some b := by
      rw [h _ _ hes hfs, hkl, lookup_rekey_concat]
    rw [lookup_rekey_concat] at hlast
    exact Option.some.inj hlast
  · intro hm es fs hes hfs
    have hle : ∀ {es fs : List (κ × α)}, Enumerates es m → Enumerates fs m → ∀ l a,
        (rekey f es).lookup l = some a → (rekey f fs).lookup l = some a := by
      intro es fs hes hfs l a ha
      obtain ⟨k, rfl, hmem⟩ := lookup_rekey ha
      exact hm.lookup_rekey hfs ((hes.mem_iff k a).mp hmem)
    refine Finmap.ext_lookup fun l => Option.ext fun a => ⟨hle hes hfs l a, hle hfs hes l a⟩

/-! ### Taking over entries -/

/-- The entries of `source` whose keys pass are inserted. -/
def insertWhere (p : κ → Bool) (source m : Finmap fun _ : κ => α) : Finmap fun _ : κ => α :=
  (entriesOf source).foldl (fun m e => if p e.1 then m.insert e.1 e.2 else m) m

theorem lookup_foldl_insertWhere (p : κ → Bool) (es : List (κ × α)) :
    (es.foldl (fun m e => if p e.1 then m.insert e.1 e.2 else m) m).lookup k =
      (if p k then find k es else none).or (m.lookup k) := by
  induction es using List.reverseRecOn with
  | nil => cases p k <;> rfl
  | append_singleton es e ih =>
    rw [List.foldl_append, List.foldl_cons, List.foldl_nil, find_append, find_singleton]
    by_cases h : k = e.1
    · subst h
      cases hp : p e.1 with
      | false => simpa [hp] using ih
      | true => simp
    · rw [if_neg h, Option.none_or, ← ih]
      split
      · rw [Keyed.lookup_insert, if_neg (Ne.symm h)]
      · rfl

/-- **An entry that is taken over stands in the place of the one of its key.** -/
theorem lookup_insertWhere (p : κ → Bool) (source : Finmap fun _ : κ => α) :
    (insertWhere p source m).lookup k =
      (if p k then source.lookup k else none).or (m.lookup k) := by
  rw [insertWhere, lookup_foldl_insertWhere, find_entriesOf]

/-! ### Sorted lists -/

/-- The entries stand in the order of their keys, one for a key. -/
def Sorted (m : List (κ × α)) : Prop := m.Pairwise fun d e => d.1 < e.1

section Sorted

variable {m m' : List (κ × α)}

theorem mem_put {e : κ × α} (h : e ∈ put k a m) : e = (k, a) ∨ e ∈ m := by
  induction m with
  | nil => exact Or.inl (List.mem_singleton.mp h)
  | cons d rest ih =>
    rw [put] at h
    split_ifs at h
    · exact List.mem_cons.mp h
    · rcases List.mem_cons.mp h with h | h
      · exact Or.inl h
      · exact Or.inr (List.mem_cons_of_mem d h)
    · rcases List.mem_cons.mp h with rfl | h
      · exact Or.inr List.mem_cons_self
      · exact (ih h).imp_right (List.mem_cons_of_mem d)

theorem sorted_put (h : Sorted m) : Sorted (put k a m) := by
  induction m with
  | nil => exact List.pairwise_singleton _ _
  | cons d rest ih =>
    obtain ⟨hd, hrest⟩ := List.pairwise_cons.mp h
    rw [put]
    split_ifs with hlt heq
    · refine List.pairwise_cons.mpr ⟨fun e he => ?_, h⟩
      rcases List.mem_cons.mp he with rfl | he
      · exact hlt
      · exact hlt.trans (hd e he)
    · exact List.pairwise_cons.mpr ⟨fun e he => heq ▸ hd e he, hrest⟩
    · refine List.pairwise_cons.mpr ⟨fun e he => ?_, ih hrest⟩
      rcases mem_put he with rfl | he
      · exact lt_of_le_of_ne (not_lt.mp hlt) (Ne.symm heq)
      · exact hd e he

theorem sorted_ofEntries (es : List (κ × α)) : Sorted (ofEntries es) := by
  induction es using List.reverseRecOn with
  | nil => exact List.Pairwise.nil
  | append_singleton es e ih =>
    rw [ofEntries, List.foldl_append]
    exact sorted_put ih

theorem mem_ofEntries {e : κ × α} (h : e ∈ ofEntries es) : e ∈ es := by
  induction es using List.reverseRecOn with
  | nil => exact h
  | append_singleton es d ih =>
    rw [ofEntries, List.foldl_append] at h
    rcases mem_put h with rfl | h
    · exact List.mem_append_right es List.mem_cons_self
    · exact List.mem_append_left _ (ih h)

theorem put_of_forall_lt (h : ∀ e ∈ m, e.1 < k) : put k a m = m ++ [(k, a)] := by
  induction m with
  | nil => rfl
  | cons d rest ih =>
    obtain ⟨l, b⟩ := d
    have hl : l < k := h (l, b) List.mem_cons_self
    rw [put_cons_of_gt hl, ih fun e he => h e (List.mem_cons_of_mem _ he), List.cons_append]

/-- **A sorted list is the map of its entries.** -/
theorem ofEntries_of_sorted (h : Sorted m) : ofEntries m = m := by
  induction m using List.reverseRecOn with
  | nil => rfl
  | append_singleton es e ih =>
    obtain ⟨hes, -, hlt⟩ := List.pairwise_append.mp h
    have hinit : es.foldl (fun m e => put e.1 e.2 m) [] = es := ih hes
    rw [ofEntries, List.foldl_append, hinit]
    exact put_of_forall_lt fun d hd => hlt d hd e (List.mem_singleton_self e)

theorem Sorted.map {β : Type v} {f : α → β} (h : Sorted m) :
    Sorted (m.map fun e => (e.1, f e.2)) :=
  List.Pairwise.map _ (fun _ _ hlt => hlt) h

theorem Sorted.filterMap {β : Type v} {f : α → Option β} (h : Sorted m) :
    Sorted (m.filterMap fun e => (f e.2).map (Prod.mk e.1)) := by
  refine List.Pairwise.filterMap _ ?_ h
  rintro d e hlt d' hd e' he
  obtain ⟨x, -, rfl⟩ := Option.map_eq_some_iff.mp hd
  obtain ⟨y, -, rfl⟩ := Option.map_eq_some_iff.mp he
  exact hlt

/-- An entry of a sorted list is what stands under its key. -/
theorem Sorted.mem_iff (h : Sorted m) {e : κ × α} : e ∈ m ↔ m.lookup e.1 = some e.2 := by
  induction m with
  | nil => simp
  | cons d rest ih =>
    obtain ⟨hd, hrest⟩ := List.pairwise_cons.mp h
    obtain ⟨k, a⟩ := d
    rw [List.mem_cons, lookup_cons_eq]
    by_cases hk : e.1 = k
    · rw [if_pos hk]
      constructor
      · rintro (rfl | he)
        · rfl
        · exact absurd hk (hd e he).ne'
      · intro ha
        exact Or.inl (Prod.ext hk (Option.some.inj ha).symm)
    · rw [if_neg hk, ← ih hrest]
      refine or_iff_right ?_
      rintro rfl
      exact hk rfl

/-- **Sorted lists with the same under each key are the same.** -/
theorem Sorted.ext (h : Sorted m) (h' : Sorted m') (hl : ∀ k, m.lookup k = m'.lookup k) :
    m = m' := by
  have hirrefl : Std.Irrefl fun d e : κ × α => d.1 < e.1 := ⟨fun _ => lt_irrefl _⟩
  have hantisymm : Std.Antisymm fun d e : κ × α => d.1 < e.1 :=
    ⟨fun _ _ hlt hgt => absurd hlt hgt.asymm⟩
  refine List.Pairwise.eq_of_mem_iff h h' fun e => ?_
  rw [h.mem_iff, h'.mem_iff, hl]

end Sorted

theorem sorted_entriesOf : Sorted (entriesOf m) := by
  refine List.Pairwise.filterMap _ ?_ (Finset.sortedLT_sort m.keys).pairwise
  rintro k l hlt e he e' he'
  obtain ⟨a, -, rfl⟩ := Option.map_eq_some_iff.mp he
  obtain ⟨b, -, rfl⟩ := Option.map_eq_some_iff.mp he'
  exact hlt

theorem lookup_entriesOf : (entriesOf m).lookup k = m.lookup k := by
  rw [← find_entriesOf, ← lookup_ofEntries, ofEntries_of_sorted sorted_entriesOf]

/-- **Entries collected to a finite map and to a sorted list are the same.** -/
theorem entriesOf_foldl_insert (es : List (κ × α)) :
    entriesOf (es.foldl (fun (m : Finmap fun _ : κ => α) e => m.insert e.1 e.2) ∅) =
      ofEntries es := by
  refine sorted_entriesOf.ext (sorted_ofEntries es) fun k => ?_
  rw [lookup_entriesOf, lookup_foldl_insert, lookup_ofEntries]

/-! ### Mapping the values -/

/-- The map with its values mapped. -/
def mapValues {β : Type v} (f : α → β) (m : Finmap fun _ : κ => α) : Finmap fun _ : κ => β :=
  ((entriesOf m).map fun e => (e.1, f e.2)).foldl (fun m e => m.insert e.1 e.2) ∅

theorem mapValues_eq_self {f : α → α} (h : ∀ e ∈ entriesOf m, f e.2 = e.2) : mapValues f m = m := by
  have hmap : (entriesOf m).map (fun e => (e.1, f e.2)) = entriesOf m := by
    refine (List.map_congr_left fun e he => ?_).trans (List.map_id _)
    rw [h e he]
    rfl
  rw [mapValues, hmap, foldl_insert_entriesOf]

theorem lookup_mapValues {β : Type v} {f : α → β} :
    (mapValues f m).lookup k = (m.lookup k).map f := by
  rw [mapValues, lookup_foldl_insert, find_map, find_entriesOf]

/-- Mapping the values keeps the keys. -/
theorem keys_mapValues {β : Type v} {f : α → β} : (mapValues f m).keys = m.keys := by
  ext k
  rw [Finmap.mem_keys, Finmap.mem_keys, ← Finmap.lookup_isSome, lookup_mapValues,
    Option.isSome_map, Finmap.lookup_isSome]

end SortedMap
