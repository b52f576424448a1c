import Mathlib.Data.List.Induction
import Ra2a.Server.Push

/-!
# Runs of the push configuration store

A run is a list of calls of the store.  What a task has after it are the
configurations that were saved for it and neither overwritten nor deleted since
(`Standing`), each under the id it is stored with (`lookup_run_iff`).
-/

namespace Ra2a

/-- A call of the store; `uuid` is the identifier that a `save` draws. -/
inductive PushStoreCall
  | save (taskId : String) (config : PushNotificationConfig) (uuid : String)
  | get (taskId configId : String)
  | list (taskId : String)
  | delete (taskId configId : String)
  | deleteAll (taskId : String)

/-- A configuration as it is stored. -/
def PushNotificationConfig.stored (config : PushNotificationConfig) (uuid : String) :
    PushNotificationConfig :=
  { config with id := some (if (config.id.getD "").isEmpty then uuid else config.id.getD "") }

namespace PushStoreCall

def taskId : PushStoreCall → String
  | save k _ _ | get k _ | list k | delete k _ | deleteAll k => k

/-- The store after a call. -/
def apply (s : InMemoryPushNotificationConfigStore) :
    PushStoreCall → InMemoryPushNotificationConfigStore
  | save k config uuid => (s.save k config uuid).2
  | get _ _ | list _ => s
  | delete k id => s.delete k id
  | deleteAll k => s.deleteAll k

/-- The call saves a configuration for the task, and this is how it is stored. -/
def Saves (call : PushStoreCall) (k : String) (c : PushNotificationConfig) : Prop :=
  match call with
  | save k' config uuid =>
    k' = k ∧ validatePushConfig config = .ok () ∧ config.stored uuid = c
  | _ => False

/-- The call overwrites or deletes what the task has under an id. -/
def Clears (call : PushStoreCall) (k id : String) : Prop :=
  match call with
  | save k' config uuid =>
    k' = k ∧ validatePushConfig config = .ok () ∧ (config.stored uuid).id = some id
  | delete k' id' => k' = k ∧ id' = id
  | deleteAll k' => k' = k
  | get _ _ | list _ => False

/-- An identifier that is drawn is not empty. -/
def Draws : PushStoreCall → Prop
  | save _ _ uuid => uuid ≠ ""
  | _ => True

end PushStoreCall

/-- The store after a run. -/
def InMemoryPushNotificationConfigStore.run (calls : List PushStoreCall) :
    InMemoryPushNotificationConfigStore :=
  calls.foldl PushStoreCall.apply .new

/-- The configuration was saved for the task, and neither overwritten nor deleted since. -/
def Standing (calls : List PushStoreCall) (k : String) (c : PushNotificationConfig) : Prop :=
  ∃ before call after, calls = before ++ call :: after ∧ call.Saves k c ∧
    ∀ call' ∈ after, ∀ id, c.id = some id → ¬ call'.Clears k id

variable {calls : List PushStoreCall} {call : PushStoreCall} {k id : String}
  {c : PushNotificationConfig} {s : InMemoryPushNotificationConfigStore}

theorem standing_concat : Standing (calls ++ [call]) k c ↔
    call.Saves k c ∨ (Standing calls k c ∧ ∀ id, c.id = some id → ¬ call.Clears k id) := by
  constructor
  · rintro ⟨before, call', after, he, hsaves, hafter⟩
    rcases List.eq_nil_or_concat after with rfl | ⟨after, last, rfl⟩
    · obtain ⟨-, hlast⟩ := List.append_inj' he rfl
      cases hlast
      exact Or.inl hsaves
    · rw [List.concat_eq_append, ← List.cons_append, ← List.append_assoc] at he
      obtain ⟨rfl, hlast⟩ := List.append_inj' he rfl
      cases hlast
      rw [List.concat_eq_append] at hafter
      exact Or.inr ⟨⟨before, call', after, rfl, hsaves, fun d hd => hafter d (by simp [hd])⟩,
        hafter call (by simp)⟩
  · rintro (hsaves | ⟨⟨before, call', after, rfl, hsaves, hafter⟩, hcall⟩)
    · exact ⟨calls, call, [], rfl, hsaves, fun d hd => by cases hd⟩
    · refine ⟨before, call', after ++ [call], by simp, hsaves, fun d hd => ?_⟩
      rcases List.mem_append.mp hd with hd | hd
      · exact hafter d hd
      · obtain rfl := List.mem_singleton.mp hd
        exact hcall

/-! ### One call -/

namespace InMemoryPushNotificationConfigStore

theorem ofTask_mk_insert (k l : String) (m : Finmap fun _ : String => PushNotificationConfig) :
    (⟨s.configs.insert l m⟩ : InMemoryPushNotificationConfigStore).ofTask k =
      if l = k then m else s.ofTask k := by
  rw [ofTask, Keyed.lookup_insert]
  split
  · rfl
  · rfl

theorem save_of_valid {config : PushNotificationConfig} (h : validatePushConfig config = .ok ())
    (k uuid : String) :
    s.save k config uuid = (.ok (config.stored uuid),
      ⟨s.configs.insert k ((s.ofTask k).insert
        (if (config.id.getD "").isEmpty then uuid else config.id.getD "")
        (config.stored uuid))⟩) := by
  rw [save, h]
  rfl

/-- A save that is rejected changes nothing. -/
theorem save_of_error {config : PushNotificationConfig} {e : A2AError} (k uuid : String)
    (h : (s.save k config uuid).1 = .error e) : (s.save k config uuid).2 = s := by
  cases hv : validatePushConfig config with
  | error e => rw [save, hv]
  | ok u =>
    rw [save_of_valid hv] at h
    cases h

theorem ofTask_delete (k l id : String) :
    (s.delete l id).ofTask k = if l = k then (s.ofTask k).erase id else s.ofTask k := by
  rw [delete]
  cases hl : s.configs.lookup l with
  | some m =>
    rw [ofTask_mk_insert]
    split
    · rename_i hlk
      rw [ofTask, ← hlk, hl, Option.getD_some]
    · rfl
  | none =>
    change s.ofTask k = _
    split
    · rename_i hlk
      have hnone : s.ofTask k = ∅ := by
        rw [ofTask, ← hlk, hl, Option.getD_none]
      rw [hnone]
      refine (Finmap.ext_lookup fun i => ?_).symm
      rw [Keyed.lookup_erase]
      split
      · rw [Finmap.lookup_empty]
      · rfl
    · rfl

theorem ofTask_deleteAll (k l : String) :
    (s.deleteAll l).ofTask k = if l = k then ∅ else s.ofTask k := by
  rw [deleteAll, ofTask, Keyed.lookup_erase]
  split
  · rfl
  · rfl

end InMemoryPushNotificationConfigStore

open InMemoryPushNotificationConfigStore

/-- A call leaves the other tasks alone. -/
theorem PushStoreCall.ofTask_apply_of_ne (h : call.taskId ≠ k) :
    (call.apply s).ofTask k = s.ofTask k := by
  cases call with
  | save l config uuid =>
    rw [apply]
    cases hv : validatePushConfig config with
    | error e => rw [InMemoryPushNotificationConfigStore.save, hv]
    | ok u =>
      rw [save_of_valid hv]
      exact (ofTask_mk_insert _ _ _).trans (if_neg h)
  | delete l id => exact (ofTask_delete _ _ _).trans (if_neg h)
  | deleteAll l => exact (ofTask_deleteAll _ _).trans (if_neg h)
  | get l id => rfl
  | list l => rfl

/-- **What a task has after a call**: what the call saves, and what it does not clear. -/
theorem PushStoreCall.lookup_apply_iff :
    ((call.apply s).ofTask k).lookup id = some c ↔
      (call.Saves k c ∧ c.id = some id) ∨
        ((s.ofTask k).lookup id = some c ∧ ¬ call.Clears k id) := by
  by_cases hk : call.taskId = k
  · subst hk
    cases call with
    | save l config uuid =>
      simp only [apply, taskId, Saves, Clears]
      cases hv : validatePushConfig config with
      | error e => simp [InMemoryPushNotificationConfigStore.save, hv]
      | ok u =>
        have hid : (config.stored uuid).id =
            some (if (config.id.getD "").isEmpty then uuid else config.id.getD "") := rfl
        rw [save_of_valid hv]
        dsimp only
        rw [ofTask_mk_insert, if_pos rfl, Keyed.lookup_insert, hid]
        generalize (if (config.id.getD "").isEmpty then uuid else config.id.getD "") = drawn at hid
        by_cases hd : drawn = id
        · subst hd
          simp only [if_true, true_and, not_true_eq_false, and_false, or_false]
          constructor
          · intro h
            cases h
            exact ⟨rfl, hid⟩
          · rintro ⟨rfl, -⟩
            rfl
        · simp only [hd, if_false, true_and, Option.some.injEq, not_false_eq_true, and_true]
          constructor
          · exact Or.inr
          · rintro (⟨rfl, hc⟩ | h)
            · rw [hid] at hc
              exact absurd (Option.some.inj hc) hd
            · exact h
    | delete l id' =>
      simp only [apply, taskId, Saves, Clears, ofTask_delete, if_true, Keyed.lookup_erase]
      by_cases hd : id' = id <;> simp [hd]
    | deleteAll l =>
      simp [apply, taskId, Saves, Clears, ofTask_deleteAll]
    | get l id' => simp [apply, Saves, Clears]
    | list l => simp [apply, Saves, Clears]
  · rw [ofTask_apply_of_ne hk]
    have hsaves : ¬ call.Saves k c := by
      intro h
      cases call <;> first | exact hk h.1 | exact h
    have hclears : ¬ call.Clears k id := by
      intro h
      cases call <;> first | exact hk h.1 | exact hk h | exact h
    simp [hsaves, hclears]

/-! ### Runs -/

namespace InMemoryPushNotificationConfigStore

/-- **What a task has after a run** is what was saved for it and stands, under its own id. -/
theorem lookup_run_iff :
    ((run calls).ofTask k).lookup id = some c ↔ Standing calls k c ∧ c.id = some id := by
  induction calls using List.reverseRecOn generalizing c with
  | nil =>
    have hempty : (run []).ofTask k = ∅ := rfl
    rw [hempty, Finmap.lookup_empty]
    constructor
    · intro h
      cases h
    · rintro ⟨⟨before, call, after, h, -⟩, -⟩
      cases before <;> cases h
  | append_singleton calls call ih =>
    have hrun : run (calls ++ [call]) = call.apply (run calls) := by
      rw [run, List.foldl_append]
      rfl
    rw [hrun, PushStoreCall.lookup_apply_iff, standing_concat, ih]
    constructor
    · rintro (⟨hsaves, hid⟩ | ⟨⟨hstanding, hid⟩, hclears⟩)
      · exact ⟨Or.inl hsaves, hid⟩
      · refine ⟨Or.inr ⟨hstanding, fun i hi => ?_⟩, hid⟩
        rw [hid] at hi
        cases hi
        exact hclears
    · rintro ⟨hsaves | ⟨hstanding, hclears⟩, hid⟩
      · exact Or.inl ⟨hsaves, hid⟩
      · exact Or.inr ⟨⟨hstanding, hid⟩, hclears id hid⟩

theorem mem_list_iff : c ∈ s.list k ↔ ∃ id, (s.ofTask k).lookup id = some c :=
  Keyed.mem_values_iff

theorem get_eq_ok_iff : s.get k id = .ok c ↔ (s.ofTask k).lookup id = some c := by
  rw [get]
  cases (s.ofTask k).lookup id <;> simp

theorem mem_list_run_iff : c ∈ (run calls).list k ↔ Standing calls k c := by
  rw [mem_list_iff]
  constructor
  · rintro ⟨id, hid⟩
    exact (lookup_run_iff.mp hid).1
  · intro hstanding
    obtain ⟨before, call, after, -, hsaves, -⟩ := id hstanding
    cases call with
    | save l config uuid =>
      obtain ⟨-, -, rfl⟩ := hsaves
      exact ⟨_, lookup_run_iff.mpr ⟨hstanding, rfl⟩⟩
    | _ => exact hsaves.elim

/-- What stands has an id. -/
theorem id_of_mem_list (hdrawn : ∀ call ∈ calls, call.Draws) (h : c ∈ (run calls).list k) :
    ∃ id, c.id = some id ∧ id ≠ "" := by
  obtain ⟨before, call, after, rfl, hsaves, -⟩ := mem_list_run_iff.mp h
  have hcall := hdrawn call (by simp)
  cases call with
  | save l config uuid =>
    obtain ⟨-, -, rfl⟩ := hsaves
    refine ⟨_, rfl, ?_⟩
    split
    · exact hcall
    · rename_i hne
      rwa [String.isEmpty_iff] at hne
  | _ => exact hsaves.elim

theorem nodup_ids : (((run calls).list k).map (·.id)).Nodup :=
  Keyed.nodup_map_values (Option.some_injective String) fun _ _ h => (lookup_run_iff.mp h).2

/-- **`get` answers exactly for what is listed.** -/
theorem get_run_eq_ok_iff :
    (run calls).get k id = .ok c ↔ c ∈ (run calls).list k ∧ c.id = some id := by
  rw [get_eq_ok_iff, lookup_run_iff, mem_list_run_iff]

end InMemoryPushNotificationConfigStore

end Ra2a
